import Courier.Delivery
import Courier.TransferInvariant

/-
  Courier: the DELIVERED announcement.

  `_maybe_deliver` is the one writer of a receive state's `delivered` flag, and it sends the
  bundle's DELIVERED message in the call that sets it (`ReceiveEngine.handleData_delivers`).
  The sender, for its part, never drops a bundle's send state during a transfer: only
  `cleanup_completed_transfers` removes one, and no transfer event calls it. So along every
  run, whatever the link loses, duplicates or reorders and whatever else is sent alongside,
  a delivered receive state of bundle `b` has had a DELIVERED datagram of `b` handed to
  `network_send` (on the link back, which loses the datagrams whose send fails), and the
  sender still holds `b` (`Transfer.Announces`, kept by every event). Handing that datagram to
  the sender completes its state of `b` (`Transfer.delivery_completes_sender`): the sender's
  completion never waits on a datagram the receiver has not sent.
-/

namespace Courier

namespace ReceiveEngine

variable (cfg : TransferConfig) (fec : FECConfig) (nodeId outputDir : String)

/-- Every receive state sits under its own bundle. -/
def Keyed (eng : ReceiveEngine) : Prop :=
  ∀ x st, eng.activeReceives.get? x = some st → st.bundleId = x

theorem takeChunk_delivered (st : ReceiveState) (msg : DataMsg) (store : Store) :
    (takeChunk st msg store).1.delivered = st.delivered := by
  have hflush : ∀ st' store', (flush st' store').1.delivered = st'.delivered := fun _ _ => by
    unfold flush; split <;> rfl
  have hfec : ∀ st' blk store', (tryFecReconstruct st' blk store').1.delivered = st'.delivered :=
    fun st' blk store' => by
      rcases tryFecReconstruct_cases st' blk store' with ⟨h, -⟩ | ⟨_, _, _, _, _, _, _, _, h⟩ <;>
        rw [h]
  have hrec : (recordChunk st msg).delivered = st.delivered := by
    unfold recordChunk; dsimp only; split_ifs <;> rfl
  unfold takeChunk
  dsimp only
  split
  · rw [hflush, hfec]; exact hrec
  · rw [hflush]; exact hrec

/-- `handle_data` leaves the state of its message's bundle delivered only when it was delivered
    before or the call sends the DELIVERED message of the bundle: `_maybe_deliver` is the one
    writer of `delivered`, and it sends DELIVERED as it writes. -/
theorem handleData_delivers (eng : ReceiveEngine) (msg : DataMsg) (src : String) (writeOk : Bool)
    (ackNonce : Nat) {st : ReceiveState}
    (hst : (handleData cfg fec nodeId outputDir eng msg src writeOk ackNonce).1.activeReceives.get?
      msg.bundleId = some st) (hdel : st.delivered = true) :
    (stateFor cfg fec nodeId outputDir eng msg src).2.delivered = true ∨
      makeDeliveredMsg (stateFor cfg fec nodeId outputDir eng msg src).2.bundleId ∈
        (handleData cfg fec nodeId outputDir eng msg src writeOk ackNonce).2 := by
  unfold handleData at hst ⊢
  dsimp only at hst ⊢
  split_ifs at hst ⊢ with hdup
  · rw [Dict.get?_insert, if_pos rfl, Option.some.injEq] at hst
    subst hst; exact Or.inl hdel
  · rw [maybeDeliver_eq_ite] at hst ⊢
    split_ifs at hst ⊢ with hc
    · refine Or.inr (List.mem_append_right _ ?_)
      rw [(ReceiveState.layout_of_shape (takeChunk_shape _ msg _)).1]
      exact List.mem_cons_self _ _
    · rw [Dict.get?_insert, if_pos rfl, Option.some.injEq] at hst
      subst hst
      exact Or.inl ((takeChunk_delivered _ _ _).symm.trans hdel)

theorem headerState_delivered (b : String) (N k r : Nat) :
    (headerState cfg fec nodeId outputDir b N k r).delivered = false := by
  rw [← headerState_shape]; rfl

theorem stateFor_bundleId {eng : ReceiveEngine} (h : Keyed eng) (msg : DataMsg) (src : String) :
    (stateFor cfg fec nodeId outputDir eng msg src).2.bundleId = msg.bundleId := by
  rcases stateFor_cases cfg fec nodeId outputDir eng msg src with hs | ⟨-, hs⟩
  · exact h _ _ hs
  · rw [hs]; exact (headerState_spec cfg fec nodeId outputDir _ _ _ _).1

/-- `handle_data` puts back one state, under its message's bundle, of the bundle of the state
    it worked on. -/
theorem handleData_insert (eng : ReceiveEngine) (msg : DataMsg) (src : String) (writeOk : Bool)
    (ackNonce : Nat) :
    ∃ st, (handleData cfg fec nodeId outputDir eng msg src writeOk ackNonce).1.activeReceives =
        eng.activeReceives.insert msg.bundleId st ∧
      st.bundleId = (stateFor cfg fec nodeId outputDir eng msg src).2.bundleId := by
  rcases handleData_cases cfg fec nodeId outputDir eng msg src writeOk ackNonce with
    ⟨-, he, -⟩ | ⟨-, hc⟩
  · exact ⟨_, he, rfl⟩
  · have hb := (ReceiveState.layout_of_shape (takeChunk_shape
      (stateFor cfg fec nodeId outputDir eng msg src).2 msg
      (stateFor cfg fec nodeId outputDir eng msg src).1)).1
    split_ifs at hc
    · exact ⟨_, hc.1, hb⟩
    · exact ⟨_, hc.1, hb⟩

theorem Keyed.handleData {eng : ReceiveEngine} (h : Keyed eng) (msg : DataMsg) (src : String)
    (writeOk : Bool) (ackNonce : Nat) :
    Keyed (handleData cfg fec nodeId outputDir eng msg src writeOk ackNonce).1 := by
  obtain ⟨st, he, hst⟩ := handleData_insert cfg fec nodeId outputDir eng msg src writeOk ackNonce
  intro x st' hx
  rw [he, Dict.get?_insert] at hx
  split_ifs at hx with hxm
  · cases hx
    rw [hst, stateFor_bundleId cfg fec nodeId outputDir h, hxm]
  · exact h x st' hx

/-- After `handle_data`, its bundle's state is delivered only if it was before the call or the
    call sends the bundle's DELIVERED message. -/
theorem handleData_announces {eng : ReceiveEngine} (h : Keyed eng) (msg : DataMsg) (src : String)
    (writeOk : Bool) (ackNonce : Nat) {st : ReceiveState}
    (hst : (handleData cfg fec nodeId outputDir eng msg src writeOk ackNonce).1.activeReceives.get?
      msg.bundleId = some st) (hdel : st.delivered = true) :
    (∃ st₀, eng.activeReceives.get? msg.bundleId = some st₀ ∧ st₀.delivered = true) ∨
      makeDeliveredMsg msg.bundleId ∈
        (handleData cfg fec nodeId outputDir eng msg src writeOk ackNonce).2 := by
  rcases handleData_delivers cfg fec nodeId outputDir eng msg src writeOk ackNonce hst hdel with
    hd | hm
  · rcases stateFor_cases cfg fec nodeId outputDir eng msg src with hs | ⟨-, hs⟩
    · exact Or.inl ⟨_, hs, hd⟩
    · rw [hs, headerState_delivered] at hd; cases hd
  · rw [stateFor_bundleId cfg fec nodeId outputDir h] at hm
    exact Or.inr hm

end ReceiveEngine

namespace SendEngine

variable (cfg : TransferConfig) {eng : SendEngine} {b : String}

/-! A bundle's send state, once there, stays: every operation the link drives inserts or maps
    states, and only `cleanup_completed_transfers` drops one. -/

theorem isSome_sendWindow (h : (eng.activeSends.get? b).isSome) (x : String) (now : ℚ)
    (ok : Nat → Bool) : ((sendWindow eng x now ok).1.activeSends.get? b).isSome := by
  unfold sendWindow
  split
  · exact h
  · exact Dict.isSome_get?_insert_of_isSome h

theorem isSome_completeTransfer (h : (eng.activeSends.get? b).isSome) (x : String) :
    ((completeTransfer eng x).activeSends.get? b).isSome := by
  rw [get?_completeTransfer]
  split_ifs with hb
  · subst hb; simpa using h
  · exact h

theorem isSome_handleSack (h : (eng.activeSends.get? b).isSome) (x : String) (acked : Finset Nat)
    (now nowSend : ℚ) (ok : Nat → Bool) :
    ((handleSack cfg eng x acked now nowSend ok).1.activeSends.get? b).isSome := by
  unfold handleSack
  split
  · exact h
  · dsimp only
    split
    · exact isSome_completeTransfer (Dict.isSome_get?_insert_of_isSome h) x
    · split
      · exact isSome_sendWindow (Dict.isSome_get?_insert_of_isSome h) x nowSend ok
      · exact Dict.isSome_get?_insert_of_isSome h

theorem isSome_handleDelivered (h : (eng.activeSends.get? b).isSome) (x : String) :
    ((handleDelivered eng x).activeSends.get? b).isSome := by
  unfold handleDelivered
  split
  · exact isSome_completeTransfer h x
  · exact h

theorem isSome_tick (h : (eng.activeSends.get? b).isSome) (x : String) (now nowRetransmit : ℚ)
    (ok : Nat → Bool) :
    ((retransmitChunks (checkTimeouts cfg eng now) x nowRetransmit ok).1.activeSends.get?
      b).isSome := by
  have hc : ((checkTimeouts cfg eng now).activeSends.get? b).isSome := by
    simpa [checkTimeouts] using h
  unfold retransmitChunks
  split
  · exact hc
  · split
    · exact hc
    · exact Dict.isSome_get?_insert_of_isSome hc

theorem isSome_sendFile (fec : FECConfig) (srcNodeId : String) {filePath destination x : String}
    {fileData : Bytes} {fecEnabled : Bool} {now : ℚ} {ok : Nat → Bool}
    {r : SendEngine × List Message}
    (hr : sendFile cfg fec srcNodeId eng filePath fileData destination fecEnabled x now ok = some r)
    (h : (eng.activeSends.get? b).isSome ∨ x = b) : (r.1.activeSends.get? b).isSome := by
  obtain ⟨chunks, row, -, -, rfl⟩ := sendFile_eq_some cfg hr
  refine isSome_sendWindow ?_ x now ok
  rw [Dict.get?_insert]
  split
  · rfl
  · exact h.resolve_right (Ne.symm ‹_›)

/-- `handle_delivered` completes a bundle the sender holds. -/
theorem handleDelivered_completes (h : (eng.activeSends.get? b).isSome) :
    ∃ st, (handleDelivered eng b).activeSends.get? b = some st ∧ st.completed = true := by
  obtain ⟨st, hst⟩ := Option.isSome_iff_exists.mp h
  unfold handleDelivered
  rw [if_pos h, get?_completeTransfer, if_pos rfl, hst]
  exact ⟨_, rfl, rfl⟩

end SendEngine

theorem mem_wire_of {msgs : List Message} {m : Message} {d : Bytes} (hm : m ∈ msgs)
    (hs : serializeMessage m = some d) (hd : d.length ≤ 1200) : d ∈ wire msgs :=
  List.mem_filterMap.mpr ⟨m, hm, by simp [hs, hd]⟩

/-- A DELIVERED message the receiver sends goes on the link and comes off it unchanged. -/
theorem delivered_mem_wire {x : String} (hx : BundleIdOk x) {msgs : List Message}
    (hm : makeDeliveredMsg x ∈ msgs) :
    ∃ d ∈ wire msgs, receiveDatagram d = some (.delivered ⟨x⟩) := by
  obtain ⟨d, hs, hlen, -, -⟩ := delivered_roundTrip ⟨x⟩ hx
  exact ⟨d, mem_wire_of hm hs (by omega), receiveDatagram_makeDeliveredMsg hx hs⟩

namespace Transfer

/-- A delivered receive state of `b` is announced on the link back, and the sender holds `b`. -/
structure Announces (b : String) (s : Transfer) : Prop where
  keyed : ReceiveEngine.Keyed s.receiver
  announced : ∀ st, s.receiver.activeReceives.get? b = some st → st.delivered = true →
    ∃ d ∈ s.toSender, receiveDatagram d = some (.delivered ⟨b⟩)
  sender : (s.sender.activeSends.get? b).isSome

section Run

variable (cfg : TransferConfig) (fec : FECConfig) (srcNodeId nodeId outputDir srcAddr : String)
  {b : String}

theorem Announces.deliverData (hb : BundleIdOk b) {s : Transfer} (h : Announces b s) (i : Nat)
    (writeOk : Bool) (ackNonce : Nat) :
    Announces b (Transfer.deliverData cfg fec nodeId outputDir srcAddr s i writeOk ackNonce) := by
  unfold Transfer.deliverData
  split
  · rename_i m _
    have old : ∀ st, s.receiver.activeReceives.get? b = some st → st.delivered = true →
        ∃ d ∈ s.toSender ++ wire (ReceiveEngine.handleData cfg fec nodeId outputDir s.receiver m
          srcAddr writeOk ackNonce).2, receiveDatagram d = some (.delivered ⟨b⟩) :=
      fun st hst hdel => by
        obtain ⟨d, hd, hdec⟩ := h.announced st hst hdel
        exact ⟨d, List.mem_append_left _ hd, hdec⟩
    refine ⟨h.keyed.handleData cfg fec nodeId outputDir m srcAddr writeOk ackNonce,
      fun st hst hdel => ?_, h.sender⟩
    replace hst : (ReceiveEngine.handleData cfg fec nodeId outputDir s.receiver m srcAddr writeOk
      ackNonce).1.activeReceives.get? b = some st := hst
    by_cases hmb : m.bundleId = b
    · subst hmb
      rcases ReceiveEngine.handleData_announces cfg fec nodeId outputDir h.keyed m srcAddr writeOk
        ackNonce hst hdel with ⟨st₀, h₀, hd₀⟩ | hm
      · exact old st₀ h₀ hd₀
      · obtain ⟨d, hd, hdec⟩ := delivered_mem_wire hb hm
        exact ⟨d, List.mem_append_right _ hd, hdec⟩
    · obtain ⟨st', he, -⟩ := ReceiveEngine.handleData_insert cfg fec nodeId outputDir s.receiver m
        srcAddr writeOk ackNonce
      rw [he, Dict.get?_insert, if_neg (Ne.symm hmb)] at hst
      exact old st hst hdel
  · exact h

theorem Announces.deliverAck {s : Transfer} (h : Announces b s) (i : Nat) (now nowSend : ℚ)
    (ok : Nat → Bool) : Announces b (Transfer.deliverAck cfg s i now nowSend ok) := by
  unfold Transfer.deliverAck
  split
  · exact ⟨h.keyed, h.announced, SendEngine.isSome_handleSack cfg h.sender _ _ _ _ _⟩
  · exact ⟨h.keyed, h.announced, SendEngine.isSome_handleDelivered h.sender _⟩
  · exact h

/-- Every event keeps the announcement, a new `send_file` of any bundle included. -/
theorem Announces.step (hb : BundleIdOk b) {s : Transfer} (h : Announces b s) (op : TransferOp) :
    Announces b (Transfer.step cfg fec srcNodeId nodeId outputDir srcAddr s op) := by
  cases op with
  | sendFile filePath fileData destination fecEnabled x now ok =>
    refine ⟨h.keyed, h.announced, ?_⟩
    show ((SendEngine.sendFile cfg fec srcNodeId s.sender filePath fileData destination fecEnabled x
      now ok).getD (s.sender, [])).1.activeSends.get? b |>.isSome
    cases hr : SendEngine.sendFile cfg fec srcNodeId s.sender filePath fileData destination
      fecEnabled x now ok with
    | none => exact h.sender
    | some r => exact SendEngine.isSome_sendFile cfg fec srcNodeId hr (Or.inl h.sender)
  | deliverData i writeOk ackNonce =>
    exact h.deliverData cfg fec nodeId outputDir srcAddr hb i writeOk ackNonce
  | deliverAck i now nowSend ok => exact h.deliverAck cfg i now nowSend ok
  | tick x now nowRetransmit ok =>
    exact ⟨h.keyed, h.announced, SendEngine.isSome_tick cfg h.sender x now nowRetransmit ok⟩

theorem Announces.run (hb : BundleIdOk b) {s : Transfer} (h : Announces b s)
    (ops : List TransferOp) :
    Announces b (Transfer.run cfg fec srcNodeId nodeId outputDir srcAddr s ops) := by
  induction ops generalizing s with
  | nil => exact h
  | cons op ops ih => exact ih (h.step cfg fec srcNodeId nodeId outputDir srcAddr hb op)

/-- `send_file` of `b` from two fresh nodes starts the announcement. -/
theorem announces_sendFile (hcs : 0 < cfg.chunkSize) (filePath : String) (fileData : Bytes)
    (destination : String) (fecEnabled : Bool) (now : ℚ) (ok : Nat → Bool) :
    Announces b (Transfer.step cfg fec srcNodeId nodeId outputDir srcAddr Transfer.init
      (.sendFile filePath fileData destination fecEnabled b now ok)) := by
  cases hr : SendEngine.sendFile cfg fec srcNodeId {} filePath fileData destination fecEnabled b
      now ok with
  | none => simp [SendEngine.sendFile, createChunks_eq cfg fec fileData b _ hcs] at hr
  | some r =>
    simp only [Transfer.step, Transfer.init, SendEngine.step, hr, Option.getD_some]
    exact ⟨fun _ _ hx => (by cases hx), fun _ hx => (by cases hx),
      SendEngine.isSome_sendFile cfg fec srcNodeId hr (Or.inr rfl)⟩

/-- Whatever happens after `send_file` of `b` (datagrams lost, repeated or reordered, writes
    failing, other bundles sent, timers firing), once the receiver has delivered `b` the link
    back holds a datagram whose delivery completes the sender's state of `b`. -/
theorem delivery_completes_sender (b : String) (hb : BundleIdOk b) (hcs : 0 < cfg.chunkSize)
    (filePath : String) (fileData : Bytes) (destination : String) (fecEnabled : Bool) (now : ℚ)
    (ok : Nat → Bool) (ops : List TransferOp) :
    let s := Transfer.run cfg fec srcNodeId nodeId outputDir srcAddr Transfer.init
      (.sendFile filePath fileData destination fecEnabled b now ok :: ops)
    ∀ st, s.receiver.activeReceives.get? b = some st → st.delivered = true →
      ∃ i, ∀ now' nowSend ok', ∃ st',
        (Transfer.step cfg fec srcNodeId nodeId outputDir srcAddr s
          (.deliverAck i now' nowSend ok')).sender.activeSends.get? b = some st' ∧
        st'.completed = true := by
  intro s st hst hdel
  have h : Announces b s := (announces_sendFile cfg fec srcNodeId nodeId outputDir srcAddr hcs
    filePath fileData destination fecEnabled now ok).run cfg fec srcNodeId nodeId outputDir
    srcAddr hb ops
  obtain ⟨d, hd, hdec⟩ := h.announced st hst hdel
  obtain ⟨i, hi⟩ := List.get?_of_mem hd
  refine ⟨i, fun now' nowSend ok' => ?_⟩
  show ∃ st', (Transfer.deliverAck cfg s i now' nowSend ok').sender.activeSends.get? b =
    some st' ∧ _
  unfold Transfer.deliverAck
  rw [hi, Option.some_bind, hdec]
  exact SendEngine.handleDelivered_completes h.sender

/-- The one-byte file, its only chunk delivered and written. -/
theorem delivery_completes_sender_one_chunk :
    BundleIdOk "b" ∧ 0 < ({ chunkSize := 1 } : TransferConfig).chunkSize ∧
      let s := Transfer.run { chunkSize := 1 } {} "A" "B" "recv" "h:1" Transfer.init
        [.sendFile "f" [7] "B" false "b" 0 (fun _ => true), .deliverData 0 true 7]
      ∀ st, s.receiver.activeReceives.get? "b" = some st → st.delivered = true →
        ∃ i, ∀ now' nowSend ok', ∃ st',
          (Transfer.step { chunkSize := 1 } {} "A" "B" "recv" "h:1" s
            (.deliverAck i now' nowSend ok')).sender.activeSends.get? "b" = some st' ∧
          st'.completed = true :=
  ⟨by decide, by decide, delivery_completes_sender { chunkSize := 1 } {} "A" "B" "recv" "h:1" "b"
    (by decide) (by decide) "f" [7] "B" false 0 (fun _ => true) [.deliverData 0 true 7]⟩

end Run

end Transfer

end Courier
