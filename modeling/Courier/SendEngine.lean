import Courier.Chunking
import Courier.Protocol
import Mathlib.Algebra.Order.Field.Rat

/-
  Courier: the send path (`send_engine.py`).

  A `SendState` per bundle, kept in `activeSends`; the engine also holds the chunk cache and
  the store. Times are exact rationals of milliseconds; each operation is given the clock
  readings it takes (`time.time() * 1000.0`) and the results of its `network_send` calls, the
  `n`-th call of the operation returning `ok n`. Every operation returns the DATA messages that
  `network_send` accepted. Python iterates `newly_acked`, a set, in an order the model fixes as
  increasing. The fields `srtt`, `rttvar`, `rto` and `send_times`, read only by `_update_rto`,
  which nothing calls, are left out.
-/

namespace Courier

/-- `SendState`. -/
structure SendState where
  bundleId : String
  windowStart : Nat := 0
  windowEnd : Nat := 0
  windowSize : Nat := 64
  ackedChunks : Finset Nat := ∅
  retransmitQueue : List Nat := []
  chunkTimers : Dict Nat ℚ := ∅
  sendTimestamps : Dict Nat ℚ := ∅
  retransmittedChunks : Finset Nat := ∅
  timeoutInterval : ℚ := 250
  smoothedRtt : ℚ := 300
  rttVariance : ℚ := 150
  totalChunks : Nat := 0
  bytesSent : Nat := 0
  chunksRetransmitted : Nat := 0
  completed : Bool := false

/-- The data of a `SendEngine`. -/
structure SendEngine where
  activeSends : Dict String SendState := ∅
  chunkCache : Dict String (Dict Nat ChunkRecord) := ∅
  store : Store := Store.empty

namespace SendEngine

variable (cfg : TransferConfig)

/-! ## Sending chunks -/

/-- The DATA message of a stored chunk. -/
def chunkMsg (totalChunks : Nat) (chunk : ChunkRecord) : Message :=
  makeDataMsg chunk.bundleId chunk.chunkId totalChunks chunk.blockId chunk.k chunk.r
    chunk.checksum chunk.payload

/-- The loop of `_send_window` over `range(window_start, window_end)`; `n` counts the
    `network_send` calls made so far. -/
def sendWindowLoop (chunks : Dict Nat ChunkRecord) (now : ℚ) (ok : Nat → Bool) :
    List Nat → Nat → SendState → SendState × List Message
  | [], _, st => (st, [])
  | c :: cs, n, st =>
    if c ∈ st.ackedChunks then sendWindowLoop chunks now ok cs n st
    else if (st.chunkTimers.get? c).any (now < ·) then sendWindowLoop chunks now ok cs n st
    else match chunks.get? c with
      | none => sendWindowLoop chunks now ok cs n st
      | some chunk =>
        if ok n then
          let st' := { st with
            chunkTimers := st.chunkTimers.insert c (now + st.timeoutInterval)
            sendTimestamps := st.sendTimestamps.insert c now
            bytesSent := st.bytesSent + chunk.payload.length }
          let rest := sendWindowLoop chunks now ok cs (n + 1) st'
          (rest.1, chunkMsg st.totalChunks chunk :: rest.2)
        else sendWindowLoop chunks now ok cs (n + 1) st

/-- The chunk dictionary `_send_window` works from: the cache, refilled from the store when it
    has no entry or an empty one. -/
def windowChunks (eng : SendEngine) (bundleId : String) :
    Dict String (Dict Nat ChunkRecord) × Dict Nat ChunkRecord :=
  match eng.chunkCache.get? bundleId with
  | some d => if d.entries = [] then
      let d' := chunkDict (eng.store.loadChunksForBundle bundleId)
      (eng.chunkCache.insert bundleId d', d')
    else (eng.chunkCache, d)
  | none =>
    let d' := chunkDict (eng.store.loadChunksForBundle bundleId)
    (eng.chunkCache.insert bundleId d', d')

/-- `_send_window(bundle_id, dest_addr)`. -/
def sendWindow (eng : SendEngine) (bundleId : String) (now : ℚ) (ok : Nat → Bool) :
    SendEngine × List Message :=
  match eng.activeSends.get? bundleId with
  | none => (eng, [])
  | some st =>
    let (cache, chunks) := eng.windowChunks bundleId
    let (st', msgs) := sendWindowLoop chunks now ok
      (List.range' st.windowStart (st.windowEnd - st.windowStart)) 0 st
    ({ eng with activeSends := eng.activeSends.insert bundleId st', chunkCache := cache }, msgs)

/-! ## Acknowledgements -/

/-- `_update_rtt_estimates(send_state, rtt)`. -/
def updateRttEstimates (st : SendState) (rtt : ℚ) : SendState :=
  let st := if st.smoothedRtt = 0 ∨ st.smoothedRtt = 300 then
      { st with smoothedRtt := rtt, rttVariance := rtt / 2 }
    else
      { st with
        rttVariance := 3 / 4 * st.rttVariance + 1 / 4 * |st.smoothedRtt - rtt|
        smoothedRtt := 7 / 8 * st.smoothedRtt + 1 / 8 * rtt }
  { st with timeoutInterval := max 100 (min (st.smoothedRtt + 4 * st.rttVariance) cfg.maxRtoMs) }

/-- The body of `handle_sack`'s loop over `newly_acked` for one chunk: an RTT sample when the
    chunk has a send time and was not retransmitted, then its timer, send time and
    retransmission mark go. -/
def ackChunk (now : ℚ) (st : SendState) (c : Nat) : SendState :=
  let st := match st.sendTimestamps.get? c with
    | some t => if c ∉ st.retransmittedChunks then updateRttEstimates cfg st (now - t) else st
    | none => st
  { st with
    chunkTimers := st.chunkTimers.erase c
    sendTimestamps := st.sendTimestamps.erase c
    retransmittedChunks := st.retransmittedChunks.erase c }

/-- `while window_start < total_chunks and window_start in acked_chunks: window_start += 1`,
    with the iterations it can make as fuel. -/
def advanceWindowStart (acked : Finset Nat) (total : Nat) (start : Nat) : Nat :=
  loop (total - start) start
where
  loop : Nat → Nat → Nat
    | 0, ws => ws
    | fuel + 1, ws => if ws < total ∧ ws ∈ acked then loop fuel (ws + 1) else ws

/-- `_complete_transfer(bundle_id)`. -/
def completeTransfer (eng : SendEngine) (bundleId : String) : SendEngine :=
  match eng.activeSends.get? bundleId with
  | none => eng
  | some st =>
    if st.completed then eng
    else
      { activeSends := eng.activeSends.insert bundleId { st with completed := true }
        store := (eng.store.updateBundleState bundleId "delivered").updateBundleStats bundleId
          st.bytesSent st.chunksRetransmitted
        chunkCache := eng.chunkCache.erase bundleId }

/-- The state after `handle_sack` has taken in the acked set and moved the window, before it
    completes the transfer or sends. -/
def sackState (now : ℚ) (st : SendState) (acked : Finset Nat) : SendState :=
  let newlyAcked := acked \ st.ackedChunks
  let st := { st with ackedChunks := st.ackedChunks ∪ acked }
  let st := (sortedIds newlyAcked).foldl (ackChunk cfg now) st
  let st := if newlyAcked.Nonempty then
      { st with timeoutInterval := max (st.smoothedRtt + 4 * st.rttVariance) cfg.baseRtoMs }
    else st
  let ws := advanceWindowStart st.ackedChunks st.totalChunks st.windowStart
  { st with windowStart := ws, windowEnd := min (ws + st.windowSize) st.totalChunks }

/-- `handle_sack(msg, sender_addr)` for a SACK of `bundleId` whose `acked_chunks` are `acked`;
    `now` is the clock of the RTT samples, `nowSend` the one `_send_window` reads. -/
def handleSack (eng : SendEngine) (bundleId : String) (acked : Finset Nat) (now nowSend : ℚ)
    (ok : Nat → Bool) : SendEngine × List Message :=
  match eng.activeSends.get? bundleId with
  | none => (eng, [])
  | some st =>
    let st' := sackState cfg now st acked
    let eng := { eng with activeSends := eng.activeSends.insert bundleId st' }
    if st'.ackedChunks.card ≥ st'.totalChunks then (completeTransfer eng bundleId, [])
    else if st'.windowEnd > st.windowEnd then sendWindow eng bundleId nowSend ok
    else (eng, [])

/-- `handle_delivered(msg)`. -/
def handleDelivered (eng : SendEngine) (bundleId : String) : SendEngine :=
  if (eng.activeSends.get? bundleId).isSome then completeTransfer eng bundleId else eng

/-! ## Timers -/

/-- `check_timeouts` on one `SendState`: timers of acked chunks are dropped, expired ones go to
    the retransmission queue, and the timeout doubles up to `max_rto_ms`. -/
def checkStateTimeouts (now : ℚ) (st : SendState) : SendState :=
  if st.completed then st
  else
    let timers := st.chunkTimers.filter fun c _ => c ∉ st.ackedChunks
    let timedOut := (timers.entries.filter fun e => e.2 ≤ now).map Prod.fst
    if timedOut = [] then { st with chunkTimers := timers }
    else
      { st with
        retransmitQueue := st.retransmitQueue ++ timedOut
        chunkTimers := timers.filter fun c _ => c ∉ timedOut
        timeoutInterval := min (st.timeoutInterval * 2) cfg.maxRtoMs
        chunksRetransmitted := st.chunksRetransmitted + timedOut.length }

/-- `check_timeouts()`. -/
def checkTimeouts (eng : SendEngine) (now : ℚ) : SendEngine :=
  { eng with activeSends := eng.activeSends.mapVal fun _ st => checkStateTimeouts cfg now st }

/-- The loop of `retransmit_chunks` over the popped queue. -/
def retransmitLoop (chunks : Dict Nat ChunkRecord) (now : ℚ) (ok : Nat → Bool) :
    List Nat → Nat → SendState → SendState × List Message
  | [], _, st => (st, [])
  | c :: cs, n, st =>
    if c ∈ st.ackedChunks then retransmitLoop chunks now ok cs n st
    else match chunks.get? c with
      | none => retransmitLoop chunks now ok cs n st
      | some chunk =>
        if ok n then
          let st' := { st with
            chunkTimers := st.chunkTimers.insert c (now + st.timeoutInterval)
            retransmittedChunks := insert c st.retransmittedChunks }
          let rest := retransmitLoop chunks now ok cs (n + 1) st'
          (rest.1, chunkMsg st.totalChunks chunk :: rest.2)
        else retransmitLoop chunks now ok cs (n + 1) st

/-- `retransmit_chunks(bundle_id, dest_addr)`. -/
def retransmitChunks (eng : SendEngine) (bundleId : String) (now : ℚ) (ok : Nat → Bool) :
    SendEngine × List Message :=
  match eng.activeSends.get? bundleId with
  | none => (eng, [])
  | some st =>
    if st.completed then (eng, [])
    else
      let chunks := chunkDict (eng.store.loadChunksForBundle bundleId)
      let (st', msgs) := retransmitLoop chunks now ok st.retransmitQueue 0
        { st with retransmitQueue := [] }
      ({ eng with activeSends := eng.activeSends.insert bundleId st' }, msgs)

/-! ## Starting, resuming and cleaning up -/

/-- `send_file(file_path, destination, dest_addr, fec_enabled)` on the file's bytes, with the
    bundle id `uuid4().hex[:16]` drew; `none` where `_create_chunks` raises. -/
def sendFile (fec : FECConfig) (srcNodeId : String) (eng : SendEngine) (filePath : String)
    (fileData : Bytes) (destination : String) (fecEnabled : Bool) (bundleId : String) (now : ℚ)
    (ok : Nat → Bool) : Option (SendEngine × List Message) := do
  let useFec := fecEnabled && fec.enabled
  let chunks ← createChunks cfg fec fileData bundleId useFec
  let row : BundleRow :=
    { src := srcNodeId, dst := destination, ttl := cfg.ttlSec, state := "sending",
      totalChunks := chunks.length, fecEnabled := useFec, k := if useFec then fec.k else 0,
      r := if useFec then fec.r else 0, filePath, fileSize := fileData.length }
  let store := chunks.foldl Store.saveChunk (eng.store.saveBundle bundleId row)
  let st : SendState :=
    { bundleId, windowSize := cfg.windowSize, timeoutInterval := cfg.baseRtoMs,
      totalChunks := chunks.length, windowEnd := min cfg.windowSize chunks.length }
  let eng : SendEngine :=
    { activeSends := eng.activeSends.insert bundleId st
      chunkCache := eng.chunkCache.insert bundleId (chunkDict chunks)
      store }
  return sendWindow eng bundleId now ok

/-- The `SendState` `resume_transfers` rebuilds from a stored bundle row. -/
def resumedState (bundleId : String) (row : BundleRow) : SendState :=
  { bundleId, windowSize := cfg.windowSize, timeoutInterval := cfg.baseRtoMs,
    totalChunks := row.totalChunks, bytesSent := row.bytesSent,
    chunksRetransmitted := row.chunksRetransmitted,
    windowEnd := min cfg.windowSize row.totalChunks }

/-- `resume_transfers()`: a fresh `SendState` for every bundle stored as `sending`. -/
def resumeTransfers (eng : SendEngine) : SendEngine :=
  let sends := (eng.store.listBundlesByState "sending").foldl
    (fun sends e => sends.insert e.1 (resumedState cfg e.1 e.2)) eng.activeSends
  { eng with activeSends := sends }

/-- `cleanup_completed_transfers()`. -/
def cleanupCompletedTransfers (eng : SendEngine) : SendEngine :=
  { eng with activeSends := eng.activeSends.filter fun _ st => !st.completed }

/-! ## Operations -/

/-- One call into the engine, with the inputs it reads. -/
inductive SendOp where
  | sendFile (filePath : String) (fileData : Bytes) (destination : String) (fecEnabled : Bool)
      (bundleId : String) (now : ℚ) (ok : Nat → Bool)
  | handleSack (bundleId : String) (acked : Finset Nat) (now nowSend : ℚ) (ok : Nat → Bool)
  | handleDelivered (bundleId : String)
  | checkTimeouts (now : ℚ)
  | retransmitChunks (bundleId : String) (now : ℚ) (ok : Nat → Bool)
  | resumeTransfers
  | cleanupCompletedTransfers

variable (fec : FECConfig) (srcNodeId : String)

/-- One operation; a `send_file` that raises leaves the engine as it was. -/
def step (eng : SendEngine) : SendOp → SendEngine × List Message
  | .sendFile filePath fileData destination fecEnabled bundleId now ok =>
    (sendFile cfg fec srcNodeId eng filePath fileData destination fecEnabled bundleId now ok).getD
      (eng, [])
  | .handleSack bundleId acked now nowSend ok => handleSack cfg eng bundleId acked now nowSend ok
  | .handleDelivered bundleId => (handleDelivered eng bundleId, [])
  | .checkTimeouts now => (checkTimeouts cfg eng now, [])
  | .retransmitChunks bundleId now ok => retransmitChunks eng bundleId now ok
  | .resumeTransfers => (resumeTransfers cfg eng, [])
  | .cleanupCompletedTransfers => (cleanupCompletedTransfers eng, [])

/-- The engine after a sequence of operations. -/
def run (eng : SendEngine) (ops : List SendOp) : SendEngine :=
  ops.foldl (fun eng op => (step cfg fec srcNodeId eng op).1) eng

end SendEngine

end Courier
