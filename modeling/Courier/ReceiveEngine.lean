import Courier.Chunking
import Courier.Protocol

/-
  Courier: the receive path (`receive_engine.py`).

  A `ReceiveState` per bundle, kept in `activeReceives`, which nothing ever empties; the
  engine also holds its store and the files it has written, by path. `handleData` is
  `handle_data` on a DATA message: it records the chunk, buffers its row, tries an XOR
  reconstruction, flushes the buffer, sends a SACK of every received id, and delivers the file
  once every data chunk is there. The write of the output file either succeeds or fails as a
  whole (`writeOk`); the `CUSTODY_ACK` nonce that `secrets.randbits(64)` draws is a parameter.
  Every message handed to `network_send` is returned; the receiver ignores its result.
-/

namespace Courier

/-- `ReceiveState`. -/
structure ReceiveState where
  bundleId : String
  totalChunks : Nat
  fecEnabled : Bool
  k : Nat
  r : Nat
  outputPath : String
  numDataChunks : Nat := 0
  receivedChunks : Finset Nat := ∅
  dataChunks : Dict Nat Bytes := ∅
  parityChunks : Dict Nat (List Bytes) := ∅
  delivered : Bool := false
  writeBuffer : List ChunkRecord := []

/-- The data of a `ReceiveEngine`, with the files written so far. -/
structure ReceiveEngine where
  activeReceives : Dict String ReceiveState := ∅
  store : Store := Store.empty
  files : Dict String Bytes := ∅

/-- `os.path.join(directory, name)` for a relative `name`. -/
def pathJoin (directory name : String) : String :=
  if directory.data.getLast? ∈ [none, some '/'] then directory ++ name
  else directory ++ "/" ++ name

/-- The number of data chunks `_maybe_deliver` waits for. -/
def ReceiveState.numData (st : ReceiveState) : Nat :=
  if st.numDataChunks = 0 then st.totalChunks else st.numDataChunks

/-- The bytes `_maybe_deliver` writes: the data chunks `0 … num_data - 1` in order. -/
def ReceiveState.assembled (st : ReceiveState) : Bytes :=
  ((List.range st.numData).map fun c => (st.dataChunks.get? c).getD []).flatten

namespace ReceiveEngine

variable (cfg : TransferConfig) (fec : FECConfig) (nodeId outputDir : String)

/-- `_infer_block_and_data_count(total_chunks, k, r)`: the first block count `B` with
    `k * (B - 1) < total_chunks - r * B ≤ k * B`, and that data count. -/
def inferBlockAndDataCount (totalChunks k r : Nat) : Option (Nat × Nat) :=
  (List.range' 1 totalChunks).findSome? fun B =>
    if totalChunks ≤ r * B then none
    else if k * (B - 1) < totalChunks - r * B ∧ totalChunks - r * B ≤ k * B then
      some (B, totalChunks - r * B)
    else none

/-- `_create_receive_state`: the bundle row it saves and the new state. FEC stays on only when
    `k`, `r` and the receiver's `FECConfig.enabled` are all set and the layout can be
    inferred. -/
def createReceiveState (store : Store) (bundleId : String) (totalChunks k r : Nat)
    (src : String) : Store × ReceiveState :=
  let (fecEnabled, k, r, numDataChunks) :=
    if k ≠ 0 ∧ r ≠ 0 ∧ fec.enabled then
      match inferBlockAndDataCount totalChunks k r with
      | some (_, numData) => (true, k, r, numData)
      | none => (false, 0, 0, totalChunks)
    else (false, k, r, totalChunks)
  let outputPath := pathJoin outputDir ("bundle_" ++ bundleId ++ ".bin")
  let row : BundleRow :=
    { src, dst := nodeId, ttl := cfg.ttlSec, state := "receiving", totalChunks,
      filePath := outputPath, fileSize := 0, fecEnabled, k := if fecEnabled then k else 0,
      r := if fecEnabled then r else 0 }
  (store.saveBundle bundleId row,
    { bundleId, totalChunks, fecEnabled, k, r, outputPath, numDataChunks })

/-- `_send_sack`: the SACK of every received id, in order. -/
def sendSack (st : ReceiveState) : Message :=
  makeSackMsg st.bundleId (sortedIds st.receivedChunks)

/-- `_xor_bytes(base, others)`. -/
def xorBytes (base : Bytes) (others : List Bytes) : Bytes := others.foldl xorInto base

/-- `_try_fec_reconstruct(state, block_id)`: when exactly one data chunk of the block is
    missing and a parity chunk of it is there, the XOR of the first parity chunk and the present
    data chunks takes the missing chunk's place, and its row is saved at once. -/
def tryFecReconstruct (st : ReceiveState) (blockId : Nat) (store : Store) :
    ReceiveState × Store :=
  if !st.fecEnabled ∨ st.k = 0 ∨ st.r = 0 then (st, store)
  else match (st.parityChunks.get? blockId).bind List.head? with
    | none => (st, store)
    | some parityPayload =>
      let start := blockId * st.k
      let expectedIds := List.range' start (min (start + st.k) st.numDataChunks - start)
      let presentIds := expectedIds.filter fun c => (st.dataChunks.get? c).isSome
      match expectedIds.filter fun c => (st.dataChunks.get? c).isNone with
      | [missingId] =>
        let recovered := xorBytes parityPayload
          (presentIds.map fun c => (st.dataChunks.get? c).getD [])
        let chunk : ChunkRecord :=
          { bundleId := st.bundleId, chunkId := missingId, isParity := false, blockId,
            k := st.k, r := st.r, payload := recovered, checksum := crc32 recovered }
        ({ st with dataChunks := st.dataChunks.insert missingId recovered
                   receivedChunks := insert missingId st.receivedChunks },
          store.saveChunk chunk)
      | _ => (st, store)

/-- `_maybe_deliver(state, sender_addr)`: once every data chunk is there, write the file and,
    if the write succeeds, mark the bundle delivered and send DELIVERED and CUSTODY_ACK.
    `writeOk = false` is an `open(path, "wb")` that raises, which leaves the path as it was; a
    write that raises after `open` has truncated the file is not modelled. -/
def maybeDeliver (st : ReceiveState) (store : Store) (files : Dict String Bytes)
    (writeOk : Bool) (ackNonce : Nat) :
    ReceiveState × Store × Dict String Bytes × List Message :=
  if st.delivered then (st, store, files, [])
  else if (List.range st.numData).any fun c => (st.dataChunks.get? c).isNone then
    (st, store, files, [])
  else if !writeOk then (st, store, files, [])
  else
    ({ st with delivered := true }, store.updateBundleState st.bundleId "delivered",
      files.insert st.outputPath st.assembled,
      [makeDeliveredMsg st.bundleId, makeCustodyAckMsg st.bundleId [] ackNonce])

/-- The state after `handle_data` has recorded a new chunk: as data, or as parity of its block
    when the bundle uses FEC. -/
def recordChunk (st : ReceiveState) (msg : DataMsg) : ReceiveState :=
  let st := { st with receivedChunks := insert msg.chunkId st.receivedChunks }
  let data := { st with dataChunks := st.dataChunks.insert msg.chunkId msg.payload }
  if st.fecEnabled ∧ st.k > 0 ∧ st.numDataChunks > 0 then
    if msg.chunkId < st.numDataChunks then data
    else
      let parities := (st.parityChunks.get? msg.blockId).getD [] ++ [msg.payload]
      { st with parityChunks := st.parityChunks.insert msg.blockId parities }
  else data

/-- The row `handle_data` buffers for a new chunk. -/
def chunkRow (st : ReceiveState) (msg : DataMsg) : ChunkRecord :=
  { bundleId := msg.bundleId, chunkId := msg.chunkId,
    isParity := st.fecEnabled && decide (msg.chunkId ≥ st.numDataChunks), blockId := msg.blockId,
    k := st.k, r := st.r, payload := msg.payload, checksum := msg.checksum }

/-- The store and the state `handle_data` works on: the bundle's state, or a new one. -/
def stateFor (eng : ReceiveEngine) (msg : DataMsg) (src : String) : Store × ReceiveState :=
  match eng.activeReceives.get? msg.bundleId with
  | some st => (eng.store, st)
  | none => createReceiveState cfg fec nodeId outputDir eng.store msg.bundleId msg.totalChunks
      msg.k msg.r src

/-- The flush of `handle_data`: the buffered rows go to the store once there are 500 of them or
    every chunk is in. -/
def flush (st : ReceiveState) (store : Store) : ReceiveState × Store :=
  if 500 ≤ st.writeBuffer.length ∨ st.receivedChunks.card = st.totalChunks then
    ({ st with writeBuffer := [] }, store.saveChunksBulk st.writeBuffer)
  else (st, store)

/-- What `handle_data` does with a chunk it has not seen, up to the flush. -/
def takeChunk (st : ReceiveState) (msg : DataMsg) (store : Store) : ReceiveState × Store :=
  let st := recordChunk st msg
  let st := { st with writeBuffer := st.writeBuffer ++ [chunkRow st msg] }
  let r := if st.fecEnabled then tryFecReconstruct st msg.blockId store else (st, store)
  flush r.1 r.2

/-- The SACK `handle_data` sends after a new chunk: every 50 received chunks, after a flush, and
    once every chunk is in. -/
def sackAfter (st : ReceiveState) : List Message :=
  if st.receivedChunks.card % 50 = 0 ∨ st.writeBuffer = [] ∨
      st.receivedChunks.card = st.totalChunks then [sendSack st] else []

/-- `handle_data(msg, sender_addr)`; `src` is the text `"host:port"` of `sender_addr`. -/
def handleData (eng : ReceiveEngine) (msg : DataMsg) (src : String) (writeOk : Bool)
    (ackNonce : Nat) : ReceiveEngine × List Message :=
  let s := stateFor cfg fec nodeId outputDir eng msg src
  if msg.chunkId ∈ s.2.receivedChunks then
    ({ eng with activeReceives := eng.activeReceives.insert msg.bundleId s.2, store := s.1 },
      [sendSack s.2])
  else
    let r := takeChunk s.2 msg s.1
    let d := maybeDeliver r.1 r.2 eng.files writeOk ackNonce
    ({ activeReceives := eng.activeReceives.insert msg.bundleId d.1, store := d.2.1,
        files := d.2.2.1 }, sackAfter r.1 ++ d.2.2.2)

end ReceiveEngine

end Courier
