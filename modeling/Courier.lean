import Courier.Dict
import Courier.Bytes
import Courier.Json
import Courier.Protocol
import Courier.Codec
import Courier.Store
import Courier.Chunking
import Courier.SendEngine
import Courier.SendInvariant
import Courier.Rto
import Courier.SendOutput
import Courier.ReceiveEngine
import Courier.Transfer
import Courier.Node
import Courier.ReceiveInvariant
import Courier.InProcess
import Courier.TransferInvariant
import Courier.Custody
import Courier.Layout
import Courier.Reassembly
import Courier.Delivery
import Courier.Repair
import Courier.EndToEnd
import Courier.Completion
import Courier.Announce
import Courier.Liveness
import Courier.Redrive
import Courier.InFlight
