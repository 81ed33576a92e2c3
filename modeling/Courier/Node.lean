import Courier.SendEngine
import Courier.ReceiveInvariant
import Courier.Custody

/-
  Courier: the node (`node.py`).

  A `Node` over one store: its `SendEngine`, whose store is the node's, `send_destinations`
  (the address each bundle started with `send_file` is sent to), the in-memory data of its
  `ReceiveEngine` (output directory `received`, the constructor's default) and of its
  `CustodyManager`, and the files written. `receiveEngine` and `custodyManager` are those
  components over the node's store; `withReceiveEngine` and `withCustodyManager` take back
  what a call changed. A tick is `_check_timeouts`: `check_timeouts`, then `retransmit_chunks`
  for every registered destination, in registration order, then `check_retry_timers`; the
  `network_send` results of the retransmission of bundle `b` are `ok b`, and the custody
  clock is the retransmission's, in seconds. `_periodic_cleanup` is
  `cleanup_completed_transfers`, then `cleanup_expired_bundles` with bundle `b` being `age b`
  seconds old. A restart clears everything in memory, keeps the store and the files, and runs
  `start()`, which calls `resume_transfers`. `delete_bundle` may be called on the node's store
  at any time.

  Proved: a `send_file` whose only `network_send` fails leaves a chunk no tick re-drives, and a
  restart leaves a resumed bundle without a destination (`unsent_chunk_never_redriven`); after
  a restart, a DATA message of a bundle of two or more chunks without FEC sets its row back to
  `receiving`, whatever it was (`restart_data_resets_state`); after `delete_bundle`, a DELIVERED
  for a bundle whose custody record is not final writes its custody row again while its bundle
  row stays deleted (`delivered_after_delete_writes_custody`).
-/

namespace Courier

/-- The data of a `Node`. -/
structure Node where
  sendEngine : SendEngine := {}
  sendDestinations : Dict String String := ∅
  activeReceives : Dict String ReceiveState := ∅
  files : Dict String Bytes := ∅
  activeRecords : Dict String CustodyRecord := ∅
  custodyConfig : CustodyConfig := {}

/-- A call into a node. -/
inductive NodeOp where
  | sendFile (filePath : String) (fileData : Bytes) (destinationNode destAddr : String)
      (fecEnabled : Bool) (bundleId : String) (now : ℚ) (ok : Nat → Bool)
  | handleSack (bundleId : String) (acked : Finset Nat) (now nowSend : ℚ) (ok : Nat → Bool)
  | handleDelivered (bundleId : String)
  | checkTimeouts (now nowRetransmit : ℚ) (ok : String → Nat → Bool)
  | restart
  | handleData (msg : DataMsg) (src : String) (writeOk : Bool) (ackNonce : Nat)
  | handleCustodyReq (bundleId : String) (ranges : List (Int × Int)) (now : ℚ) (ackNonce : Nat)
  | handleCustodyAck (bundleId : String)
  | periodicCleanup (age : String → ℚ)
  | deleteBundle (bundleId : String)

namespace Node

/-- The node's store. -/
def store (n : Node) : Store := n.sendEngine.store

/-- The node with its store replaced. -/
def withStore (n : Node) (store : Store) : Node :=
  { n with sendEngine := { n.sendEngine with store } }

/-- The node's `ReceiveEngine`, over the node's store. -/
def receiveEngine (n : Node) : ReceiveEngine :=
  { activeReceives := n.activeReceives, store := n.store, files := n.files }

/-- The node after its `ReceiveEngine` became `eng`. -/
def withReceiveEngine (n : Node) (eng : ReceiveEngine) : Node :=
  { n.withStore eng.store with activeReceives := eng.activeReceives, files := eng.files }

/-- The node's `CustodyManager`, over the node's store. -/
def custodyManager (n : Node) : CustodyManager :=
  { activeRecords := n.activeRecords, store := n.store }

/-- The node after its `CustodyManager` became `m`. -/
def withCustodyManager (n : Node) (m : CustodyManager) : Node :=
  { n.withStore m.store with activeRecords := m.activeRecords }

variable (cfg : TransferConfig) (fec : FECConfig) (nodeId : String)

/-- `send_file(file_path, destination_node, dest_host, dest_port, fec_enabled)`: the engine's
    `send_file`, then the destination is registered; nothing when `send_file` raises. -/
def sendFile (n : Node) (filePath : String) (fileData : Bytes) (destinationNode destAddr : String)
    (fecEnabled : Bool) (bundleId : String) (now : ℚ) (ok : Nat → Bool) : Node × List Message :=
  match SendEngine.sendFile cfg fec nodeId n.sendEngine filePath fileData destinationNode
      fecEnabled bundleId now ok with
  | some (eng, msgs) =>
    ({ n with sendEngine := eng, sendDestinations := n.sendDestinations.insert bundleId destAddr },
      msgs)
  | none => (n, [])

/-- `_check_timeouts()`. -/
def checkTimeouts (n : Node) (now nowRetransmit : ℚ) (ok : String → Nat → Bool) :
    Node × List Message :=
  let r := n.sendDestinations.keys.foldl (fun (r : SendEngine × List Message) b =>
      let (eng, msgs) := SendEngine.retransmitChunks r.1 b nowRetransmit (ok b)
      (eng, r.2 ++ msgs))
    (SendEngine.checkTimeouts cfg n.sendEngine now, [])
  let n := { n with sendEngine := r.1 }
  (n.withCustodyManager
    (CustodyManager.checkRetryTimers n.custodyConfig n.custodyManager (nowRetransmit / 1000)), r.2)

/-- `_handle_delivered_message`: the send engine, then the custody manager. -/
def handleDelivered (n : Node) (bundleId : String) : Node :=
  let n := { n with sendEngine := SendEngine.handleDelivered n.sendEngine bundleId }
  n.withCustodyManager (CustodyManager.handleDelivered n.custodyManager bundleId)

/-- `_periodic_cleanup()`. -/
def periodicCleanup (n : Node) (age : String → ℚ) : Node :=
  let n := { n with sendEngine := SendEngine.cleanupCompletedTransfers n.sendEngine }
  n.withStore (n.store.cleanupExpiredBundles age)

/-- A restart: a new `Node` over the same store and files, then `start()`. -/
def restart (n : Node) : Node :=
  { sendEngine := SendEngine.resumeTransfers cfg { store := n.store }, files := n.files,
    custodyConfig := n.custodyConfig }

/-- One call. -/
def step (n : Node) : NodeOp → Node × List Message
  | .sendFile filePath fileData destinationNode destAddr fecEnabled bundleId now ok =>
    sendFile cfg fec nodeId n filePath fileData destinationNode destAddr fecEnabled bundleId now ok
  | .handleSack bundleId acked now nowSend ok =>
    let (eng, msgs) := SendEngine.handleSack cfg n.sendEngine bundleId acked now nowSend ok
    ({ n with sendEngine := eng }, msgs)
  | .handleDelivered bundleId => (handleDelivered n bundleId, [])
  | .checkTimeouts now nowRetransmit ok => checkTimeouts cfg n now nowRetransmit ok
  | .restart => (restart cfg n, [])
  | .handleData msg src writeOk ackNonce =>
    let r := ReceiveEngine.handleData cfg fec nodeId "received" n.receiveEngine msg src writeOk
      ackNonce
    (n.withReceiveEngine r.1, r.2)
  | .handleCustodyReq bundleId ranges now ackNonce =>
    let r := CustodyManager.handleCustodyReq n.custodyConfig nodeId n.custodyManager bundleId
      ranges now ackNonce
    (n.withCustodyManager r.1, r.2)
  | .handleCustodyAck bundleId =>
    (n.withCustodyManager (CustodyManager.handleCustodyAck n.custodyManager bundleId), [])
  | .periodicCleanup age => (periodicCleanup n age, [])
  | .deleteBundle bundleId => (n.withStore (n.store.deleteBundle bundleId), [])

/-- The node after a sequence of calls, with every message it sent. -/
def run (n : Node) : List NodeOp → Node × List Message
  | [] => (n, [])
  | op :: ops =>
    let (n', msgs) := step cfg fec nodeId n op
    let (n'', rest) := run n' ops
    (n'', msgs ++ rest)

/-- Two runs that leave a chunk no tick re-drives. A `send_file` whose only `network_send`
    fails arms no deadline and queues nothing, so ticks never resend chunk `0`, and nothing is
    sent at all; after a restart, the resumed bundle is not completed and has no destination. -/
theorem unsent_chunk_never_redriven :
    let cfg : TransferConfig :=
      { chunkSize := 1, windowSize := 1, baseRtoMs := 200, maxRtoMs := 500 }
    let r := run cfg {} "A" {} [.sendFile "f" [7] "B" "h:2" false "b" 0 fun _ => false,
      .checkTimeouts 1000 1000 (fun _ _ => true), .checkTimeouts 100000 100000 fun _ _ => true]
    let n := (run cfg {} "A" {} [.sendFile "f" [7] "B" "h:2" false "b" 0 fun _ => true,
      .restart]).1
    r.2 = [] ∧
      (r.1.sendEngine.activeSends.get? "b").map (fun st => (st.windowStart, st.windowEnd,
        decide (0 ∈ st.ackedChunks), st.chunkTimers.get? 0, st.retransmitQueue)) =
        some (0, 1, false, none, []) ∧
      (n.sendEngine.activeSends.get? "b").map SendState.completed = some false ∧
      n.sendDestinations.get? "b" = none := by
  decide

/-! ## Rows written after the fact -/

/-- After a restart, a DATA message of a bundle of two or more chunks received without FEC
    (the message carries no `k` or `r`, or the node has FEC disabled) creates a new state and
    saves the bundle's row as `receiving`, whatever the row was: delivered bundles move back. -/
theorem restart_data_resets_state (n : Node) (msg : DataMsg) (src : String) (writeOk : Bool)
    (ackNonce : Nat) (hN : 2 ≤ msg.totalChunks)
    (hfec : msg.k = 0 ∨ msg.r = 0 ∨ fec.enabled = false) :
    ((run cfg fec nodeId n [.restart, .handleData msg src writeOk ackNonce]).1.store.loadBundle
      msg.bundleId).map BundleRow.state = some "receiving" := by
  set s := ReceiveEngine.createReceiveState cfg fec nodeId "received" n.store msg.bundleId
    msg.totalChunks msg.k msg.r src with hs
  obtain ⟨-, h2, h3, h4, -, -, h7⟩ := ReceiveEngine.createReceiveState_spec cfg fec nodeId
    "received" n.store msg.bundleId msg.totalChunks msg.k msg.r src
  obtain ⟨hrow, -, -⟩ := ReceiveEngine.createReceiveState_store cfg fec nodeId "received" n.store
    msg.bundleId msg.totalChunks msg.k msg.r src
  have hoff : s.2.fecEnabled = false := by
    rw [hs, ReceiveEngine.createReceiveState, if_neg (by rcases hfec with h | h | h <;> simp [h])]
  have hnd := h7 hoff
  have hrun : (run cfg fec nodeId n [.restart, .handleData msg src writeOk ackNonce]).1.store =
      (ReceiveEngine.maybeDeliver (ReceiveEngine.takeChunk s.2 msg s.1).1
        (ReceiveEngine.takeChunk s.2 msg s.1).2 n.files writeOk ackNonce).2.1 := by
    show (ReceiveEngine.handleData cfg fec nodeId "received" (restart cfg n).receiveEngine msg src
      writeOk ackNonce).1.store = _
    have hnone : (restart cfg n).receiveEngine.activeReceives.get? msg.bundleId = none := rfl
    have hstore : (restart cfg n).receiveEngine.store = n.store := rfl
    unfold ReceiveEngine.handleData ReceiveEngine.stateFor
    rw [hnone, hstore]
    dsimp only
    rw [if_neg (by rw [h3]; exact Finset.not_mem_empty _)]
    rfl
  set t := ReceiveEngine.takeChunk s.2 msg s.1
  have hT := ReceiveEngine.takes_takeChunk s.2 msg s.1
  -- one of the ids `0` and `1` is not the message's, and holds no data
  have hmiss : ¬ ∀ c < t.1.numData, (t.1.dataChunks.get? c).isSome := fun hall => by
    have hnum : t.1.numData = msg.totalChunks := by
      unfold ReceiveState.numData
      rw [hT.numDataChunks, hT.totalChunks, hnd, h2, ite_self]
    obtain ⟨c, hc, hcn⟩ : ∃ c < 2, c ≠ msg.chunkId :=
      if h : msg.chunkId = 0 then ⟨1, by omega, by omega⟩ else ⟨0, by omega, Ne.symm h⟩
    rcases hT.data c (hall c (by omega)) with h | h
    · rw [h4, Dict.get?_empty] at h
      exact Bool.false_ne_true h
    · rcases hT.received c h with h | h | h
      · rw [h3] at h
        exact Finset.not_mem_empty c h
      · exact hcn h
      · rw [hoff] at h
        exact Bool.false_ne_true h.1
  rw [hrun]
  rcases ReceiveEngine.maybeDeliver_cases t.1 t.2 n.files writeOk ackNonce with he | ⟨-, hall, -⟩
  · rw [he]
    show (t.2.bundles.get? msg.bundleId).map BundleRow.state = _
    rw [(ReceiveEngine.takeChunk_store s.2 msg s.1).1]
    exact hrow
  · exact absurd hall hmiss

/-- A delivered bundle of two chunks: a restart and the retransmitted DATA of chunk 1 set its
    row back from `delivered` to `receiving`. -/
theorem restart_data_resets_delivered :
    let n := (run {} {} "B" {} [.handleData ⟨"b", 0, 2, 0, 0, 0, 0, [1]⟩ "A" true 0,
      .handleData ⟨"b", 1, 2, 0, 0, 0, 0, [2]⟩ "A" true 0]).1
    (n.store.loadBundle "b").map BundleRow.state = some "delivered" ∧
      2 ≤ (⟨"b", 1, 2, 0, 0, 0, 0, [2]⟩ : DataMsg).totalChunks ∧
      ((run {} {} "B" n [.restart, .handleData ⟨"b", 1, 2, 0, 0, 0, 0, [2]⟩ "A" true 0]).1.store.loadBundle
        "b").map BundleRow.state = some "receiving" :=
  ⟨by decide, by decide,
    restart_data_resets_state {} {} "B" _ ⟨"b", 1, 2, 0, 0, 0, 0, [2]⟩ "A" true 0 (by decide)
      (Or.inl rfl)⟩

/-- `handle_delivered` of the send engine writes no custody row and adds or removes no bundle
    row. -/
theorem store_handleDelivered (eng : SendEngine) (b b' : String) :
    (SendEngine.handleDelivered eng b).store.custody = eng.store.custody ∧
      ((SendEngine.handleDelivered eng b).store.bundles.get? b').isSome =
        (eng.store.bundles.get? b').isSome := by
  unfold SendEngine.handleDelivered SendEngine.completeTransfer
  split_ifs
  · split
    · exact ⟨rfl, rfl⟩
    · split_ifs
      · exact ⟨rfl, rfl⟩
      · simp [Store.updateBundleState, Store.updateBundleStats]
  · exact ⟨rfl, rfl⟩

/-- After `delete_bundle(b)`, a DELIVERED for `b` whose custody record is not final saves the
    record, now `complete`, as a custody row of `b` again, while `b` has no bundle row. -/
theorem delivered_after_delete_writes_custody (n : Node) {b : String} {r : CustodyRecord}
    (hr : n.activeRecords.get? b = some r) (hkey : r.bundleId = b) (hf : r.isFinal = false) :
    let n' := (run cfg fec nodeId n [.deleteBundle b, .handleDelivered b]).1
    n'.store.custody.get? b = some { r with state := "complete" } ∧
      n'.store.bundles.get? b = none := by
  intro n'
  let e := SendEngine.handleDelivered (n.withStore (n.store.deleteBundle b)).sendEngine b
  have hm : n' = { n.withStore (n.store.deleteBundle b) with sendEngine := e }.withCustodyManager
      (CustodyManager.saveRecord { activeRecords := n.activeRecords, store := e.store }
        { r with state := "complete" }) := by
    show (handleDelivered (n.withStore (n.store.deleteBundle b)) b) = _
    unfold handleDelivered CustodyManager.handleDelivered
    dsimp only
    rw [show (custodyManager { n.withStore (n.store.deleteBundle b) with sendEngine := e }).activeRecords.get? b
      = some r from hr]
    dsimp only
    rw [if_neg (by rw [hf]; exact Bool.false_ne_true)]
    rfl
  obtain ⟨hcus, hbun⟩ := store_handleDelivered (n.withStore (n.store.deleteBundle b)).sendEngine b b
  rw [hm]
  refine ⟨?_, ?_⟩
  · show (CustodyManager.saveRecord _ _).store.custody.get? b = _
    rw [CustodyManager.saveRecord_custody, if_pos hkey.symm]
  · show e.store.bundles.get? b = none
    have : ((n.store.deleteBundle b).bundles.get? b).isSome = false := by
      simp [Store.deleteBundle]
    exact Option.not_isSome_iff_eq_none.mp (by rw [hbun]; exact this ▸ Bool.false_ne_true)

/-- A node receiving bundle `b` that has accepted custody of it: after `delete_bundle(b)`, a
    DELIVERED for `b` writes `b`'s custody row back with no bundle row. -/
theorem delivered_after_delete_custody_row :
    let n := (run {} {} "B" {} [.handleData ⟨"b", 0, 2, 0, 0, 0, 0, [1]⟩ "A" true 0,
      .handleCustodyReq "b" [] 0 0]).1
    (n.store.bundles.get? "b").isSome ∧
      ∃ r, n.activeRecords.get? "b" = some r ∧ r.bundleId = "b" ∧ r.isFinal = false ∧
        let n' := (run {} {} "B" n [.deleteBundle "b", .handleDelivered "b"]).1
        n'.store.custody.get? "b" = some { r with state := "complete" } ∧
          n'.store.bundles.get? "b" = none :=
  ⟨by decide, _, rfl, rfl, rfl, delivered_after_delete_writes_custody {} {} "B" _ rfl rfl rfl⟩

end Node

end Courier
