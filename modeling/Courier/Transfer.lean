import Courier.SendEngine
import Courier.ReceiveEngine
import Courier.Codec

/-
  Courier: one transfer between a sending and a receiving node over UDP.

  The sender's `SendEngine` and the receiver's `ReceiveEngine` talk through `NetworkIO`: every
  message a side hands to `send_message` is serialized, and goes on the link when it
  serializes to at most 1200 bytes. The link keeps every datagram ever sent in each direction;
  a delivery names one of them by its index, so datagrams may be lost (never delivered),
  duplicated (delivered again) and reordered, but never altered. The receiver ignores what
  `network_send` returns, so a receiver send that fails is a datagram the link loses; the
  sender's sends carry their results (`ok`), which `_send_window` and `retransmit_chunks` read.
  A delivered datagram goes through `_receive_loop` (`receiveDatagram`) and
  `Node._handle_message`: DATA to `handle_data`, SACK to `handle_sack` with the decoded
  `acked_chunks`, DELIVERED to `handle_delivered`; everything else is dropped (the custody
  manager is not modelled). A tick is `Node._check_timeouts` for one bundle: `check_timeouts`,
  then `retransmit_chunks`; the periodic cleanup is not an event of a transfer.
-/

namespace Courier

/-- The two nodes' engines and the datagrams sent each way. -/
structure Transfer where
  sender : SendEngine
  receiver : ReceiveEngine
  toReceiver : List Bytes := []
  toSender : List Bytes := []

/-- `send_message` on each message: the datagrams that go on the link. -/
def wire (msgs : List Message) : List Bytes :=
  msgs.filterMap fun m => (serializeMessage m).filter fun d => d.length ≤ 1200

/-- An event of a transfer. -/
inductive TransferOp where
  | sendFile (filePath : String) (fileData : Bytes) (destination : String) (fecEnabled : Bool)
      (bundleId : String) (now : ℚ) (ok : Nat → Bool)
  | deliverData (i : Nat) (writeOk : Bool) (ackNonce : Nat)
  | deliverAck (i : Nat) (now nowSend : ℚ) (ok : Nat → Bool)
  | tick (bundleId : String) (now nowRetransmit : ℚ) (ok : Nat → Bool)

/-- Whether an event starts a transfer. -/
def TransferOp.isSendFile : TransferOp → Bool
  | .sendFile .. => true
  | _ => false

namespace Transfer

variable (cfg : TransferConfig) (fec : FECConfig) (srcNodeId nodeId outputDir srcAddr : String)

/-- The receiving node handles the `i`-th datagram the sender put on the link. -/
def deliverData (s : Transfer) (i : Nat) (writeOk : Bool) (ackNonce : Nat) : Transfer :=
  match (s.toReceiver.get? i).bind receiveDatagram with
  | some (.data m) =>
    let (receiver, msgs) := ReceiveEngine.handleData cfg fec nodeId outputDir s.receiver m srcAddr
      writeOk ackNonce
    { s with receiver, toSender := s.toSender ++ wire msgs }
  | _ => s

/-- The sending node handles the `i`-th datagram the receiver put on the link. -/
def deliverAck (s : Transfer) (i : Nat) (now nowSend : ℚ) (ok : Nat → Bool) : Transfer :=
  match (s.toSender.get? i).bind receiveDatagram with
  | some (.sack m) =>
    let (sender, msgs) := SendEngine.handleSack cfg s.sender m.bundleId m.ackedSet now nowSend ok
    { s with sender, toReceiver := s.toReceiver ++ wire msgs }
  | some (.delivered m) => { s with sender := SendEngine.handleDelivered s.sender m.bundleId }
  | _ => s

/-- One event. -/
def step (s : Transfer) : TransferOp → Transfer
  | .sendFile filePath fileData destination fecEnabled bundleId now ok =>
    let (sender, msgs) := SendEngine.step cfg fec srcNodeId s.sender
      (.sendFile filePath fileData destination fecEnabled bundleId now ok)
    { s with sender, toReceiver := s.toReceiver ++ wire msgs }
  | .deliverData i writeOk ackNonce =>
    deliverData cfg fec nodeId outputDir srcAddr s i writeOk ackNonce
  | .deliverAck i now nowSend ok => deliverAck cfg s i now nowSend ok
  | .tick bundleId now nowRetransmit ok =>
    let (sender, msgs) := SendEngine.retransmitChunks
      (SendEngine.checkTimeouts cfg s.sender now) bundleId nowRetransmit ok
    { s with sender, toReceiver := s.toReceiver ++ wire msgs }

/-- The transfer after a sequence of events. -/
def run (s : Transfer) (ops : List TransferOp) : Transfer :=
  ops.foldl (step cfg fec srcNodeId nodeId outputDir srcAddr) s

/-- Two fresh nodes with empty stores. -/
def init : Transfer := ⟨{}, {}, [], []⟩

/-- The failing run of FEC: the 3-byte file `01 02 03` in chunks of 2 bytes, one XOR parity
    chunk per block of 2; the link loses the short last chunk `[3]`, the receiver rebuilds it
    from the parity `[2, 2]` as `[3, 0]`, and writes 4 bytes. -/
theorem fecReconstruct_pads_short_chunk :
    let s : Transfer := run { chunkSize := 2, windowSize := 4, baseRtoMs := 200, maxRtoMs := 500 }
      { enabled := true, k := 2, r := 1 } "A" "B" "recv" "h:1" init
      [.sendFile "f" [1, 2, 3] "B" true "b" 0 fun _ => true,
       .deliverData 0 true 7, .deliverData 2 true 7]
    (s.receiver.activeReceives.get? "b").map ReceiveState.delivered = some true ∧
      s.receiver.files.get? "recv/bundle_b.bin" = some [1, 2, 3, 0] := by
  decide

/-- The final SACK completes the sender before the receiver's write fails: the receiver gets
    the only chunk, sends the SACK of `{0}`, and cannot write the file; the SACK completes the
    sender, which stores the bundle as `delivered` and retransmits nothing at the next tick. -/
theorem sender_completes_before_failed_write :
    let cfg : TransferConfig :=
      { chunkSize := 1, windowSize := 1, baseRtoMs := 200, maxRtoMs := 500 }
    let s := run cfg {} "A" "B" "recv" "h:1" init
      [.sendFile "f" [7] "B" false "b" 0 fun _ => true,
       .deliverData 0 false 7, .deliverAck 0 10 10 fun _ => true]
    (s.sender.activeSends.get? "b").map SendState.completed = some true ∧
      (s.sender.store.loadBundle "b").map BundleRow.state = some "delivered" ∧
      (s.receiver.activeReceives.get? "b").map ReceiveState.delivered = some false ∧
      s.receiver.files.get? "recv/bundle_b.bin" = none ∧
      (step cfg {} "A" "B" "recv" "h:1" s (.tick "b" 1000 1000 fun _ => true)).toReceiver =
        s.toReceiver := by
  decide

end Transfer

end Courier
