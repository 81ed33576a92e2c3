import Courier.Transfer
import Courier.SendOutput
import Courier.ReceiveInvariant

/-
  Courier: what the sender's completion says about the receiver, over a link that loses,
  duplicates and reorders datagrams, with the receiver's write allowed to fail.

  Every datagram the sender puts on the link decodes to a DATA message of its bundle with an
  id below the chunk count; every SACK the receiver puts on it acks only ids the receiver
  holds, and every DELIVERED names a delivered bundle (`Backed`). Hence the sender's acked set
  stays inside the receiver's received set, and `handle_sack` completes the bundle only when
  that set has the chunk count's size, i.e. holds every id: the receiver has every chunk, or
  DELIVERED came first (`Covered`). The bundle row reads `delivered` only for a completed
  state (`StoreMarks`). The completion can still come before the write, which then fails
  (`Transfer.sender_completes_before_failed_write`).
-/

namespace Courier

/-! ## What the link carries -/

theorem receiveDatagram_of_decode {d : Bytes} {m : Decoded} (hd : d.length ≤ 1200)
    (h : deserializeMessage d = some m) (ht : m.truthy) : receiveDatagram d = some m := by
  simp [receiveDatagram, List.take_of_length_le hd, h, ht]

/-- A DATA message that goes on the link comes off it unchanged. -/
theorem receiveDatagram_data {m : DataMsg} {d : Bytes} (hbid : BundleIdOk m.bundleId)
    (h : serializeMessage (.data m) = some d) (hd : d.length ≤ 1200) :
    receiveDatagram d = some (.data m) := by
  obtain ⟨⟨hc, ht, hb, hk, hr, hs, hp⟩, -⟩ := serializeMessage_data_spec h
  obtain ⟨header, hs', -, -, hdec⟩ := data_roundTrip m hbid hc ht hb hk hr hs hp
  rw [h, Option.some.injEq] at hs'
  subst hs'
  exact receiveDatagram_of_decode hd hdec rfl

/-- A SACK of ids below `2 ^ 32 - 1` comes off the link acking only ids it was built from. -/
theorem receiveDatagram_makeSackMsg {x : String} (hbid : BundleIdOk x) {l : List Nat}
    (hl : ∀ c ∈ l, c < 2 ^ 32 - 1) {d : Bytes} (h : serializeMessage (makeSackMsg x l) = some d)
    (hd : d.length ≤ 1200) :
    ∃ sm, receiveDatagram d = some (.sack sm) ∧ sm.bundleId = x ∧ sm.ackedSet ⊆ l.toFinset := by
  obtain ⟨d', hs, -, hdec⟩ := makeSackMsg_decode x hbid l hl
  rw [h, Option.some.injEq] at hs
  subst hs
  refine ⟨_, receiveDatagram_of_decode hd hdec rfl, rfl, fun c hc => ?_⟩
  simp only [SackMsg.ackedSet, Option.getD_some, List.mem_toFinset, mem_sortedIds,
    sackAckedSet_computeSackWindow, Finset.mem_filter] at hc
  exact List.mem_toFinset.mpr hc.1

theorem receiveDatagram_makeDeliveredMsg {x : String} (hbid : BundleIdOk x) {d : Bytes}
    (h : serializeMessage (makeDeliveredMsg x) = some d) :
    receiveDatagram d = some (.delivered ⟨x⟩) := by
  obtain ⟨d', hs, hlen, -, hdec⟩ := delivered_roundTrip ⟨x⟩ hbid
  rw [show serializeMessage (.delivered ⟨x⟩) = some d from h, Option.some.injEq] at hs
  subst hs
  exact receiveDatagram_of_decode (by omega) hdec rfl

theorem receiveDatagram_makeCustodyAckMsg {x : String} (hbid : BundleIdOk x) {n : Nat} {d : Bytes}
    (h : serializeMessage (makeCustodyAckMsg x [] n) = some d) (hd : d.length ≤ 1200) :
    ∃ ranges n', receiveDatagram d = some (.custodyAck x ranges n') := by
  have hb := h
  simp only [makeCustodyAckMsg, serializeMessage, serializeCustodyAckMessage, Option.bind_eq_bind,
    Option.bind_eq_some, packUInt, Option.ite_none_right_eq_some] at hb
  obtain ⟨_, ⟨hn, -⟩, _, ⟨hr, -⟩, -⟩ := hb
  obtain ⟨header, hs, -, -, hdec⟩ := custodyAck_roundTrip ⟨x, [], n⟩ hbid hn hr
  rw [show serializeMessage (.custodyAck ⟨x, [], n⟩) = some d from h, Option.some.injEq] at hs
  subst hs
  exact ⟨_, _, receiveDatagram_of_decode hd hdec rfl⟩

theorem mem_wire {msgs : List Message} {d : Bytes} (h : d ∈ wire msgs) :
    ∃ m ∈ msgs, serializeMessage m = some d ∧ d.length ≤ 1200 := by
  simp only [wire, List.mem_filterMap, Option.filter_eq_some, Option.mem_def,
    decide_eq_true_eq] at h
  exact h

/-! ## The sender: what an acknowledgement can change -/

namespace SendEngine

variable (cfg : TransferConfig)

theorem store_sendWindow (eng : SendEngine) (x : String) (now : ℚ) (ok : Nat → Bool) :
    (sendWindow eng x now ok).1.store = eng.store := by
  unfold sendWindow; split <;> rfl

theorem store_retransmitChunks (eng : SendEngine) (x : String) (now : ℚ) (ok : Nat → Bool) :
    (retransmitChunks eng x now ok).1.store = eng.store := by
  unfold retransmitChunks; split
  · rfl
  · split <;> rfl

/-- A bundle row reads `delivered` only for a completed state. -/
def StoreMarks (eng : SendEngine) : Prop :=
  ∀ x row, eng.store.loadBundle x = some row → row.state = "delivered" →
    ∃ st, eng.activeSends.get? x = some st ∧ st.completed

theorem bundles_foldl_saveChunk (chunks : List ChunkRecord) (store : Store) :
    (chunks.foldl Store.saveChunk store).bundles = store.bundles := by
  induction chunks generalizing store with
  | nil => rfl
  | cons c cs ih => exact ih _

namespace StoreMarks

variable {eng : SendEngine} (h : StoreMarks eng)
include h

theorem calm {eng' : SendEngine} (hc : Calm eng eng') (hs : eng'.store = eng.store) :
    StoreMarks eng' := fun x row hrow hd => by
  obtain ⟨st, hst, hcomp⟩ := h x row (hs ▸ hrow) hd
  obtain ⟨st', hst'⟩ := Option.isSome_iff_exists.mp (hc.isSome x (by simp [hst]))
  obtain ⟨st₀, h₀, -, hc'⟩ := hc.states x st' hst'
  rw [hst, Option.some.injEq] at h₀
  subst h₀
  exact ⟨st', hst', hc' ▸ hcomp⟩

theorem insert {x : String} {st : SendState} (st' : SendState)
    (hget : eng.activeSends.get? x = some st) (hc : st.completed → st'.completed) :
    StoreMarks { eng with activeSends := eng.activeSends.insert x st' } := fun y row hrow hd => by
  obtain ⟨sy, hsy, hcy⟩ := h y row hrow hd
  by_cases hy : y = x
  · subst hy
    rw [hget, Option.some.injEq] at hsy
    subst hsy
    exact ⟨st', by simp, hc hcy⟩
  · exact ⟨sy, by simp [Dict.get?_insert, hy, hsy], hcy⟩

theorem completeTransfer (x : String) : StoreMarks (completeTransfer eng x) := by
  unfold SendEngine.completeTransfer
  split
  · exact h
  · split
    · exact h
    · intro y row hrow hd
      by_cases hy : y = x
      · subst hy; simp [Dict.get?_insert]
      · simp only [Store.loadBundle, Store.updateBundleStats, Store.updateBundleState,
          Dict.get?_mapVal, if_neg hy, Option.map_id'] at hrow
        obtain ⟨sy, hsy, hcy⟩ := h y row hrow hd
        exact ⟨sy, by simp [Dict.get?_insert, hy, hsy], hcy⟩

theorem handleSack (x : String) (acked : Finset Nat) (now nowSend : ℚ) (ok : Nat → Bool) :
    StoreMarks (handleSack cfg eng x acked now nowSend ok).1 := by
  unfold SendEngine.handleSack
  split
  · exact h
  · rename_i st hget
    have h₁ := h.insert (sackState cfg now st acked) hget
      fun hc => by rwa [(sackState_queue cfg now st acked).2]
    dsimp only
    split
    · exact h₁.completeTransfer x
    · split
      · exact h₁.calm (calm_sendWindow _ x nowSend ok) (store_sendWindow _ x nowSend ok)
      · exact h₁

theorem handleDelivered (x : String) : StoreMarks (handleDelivered eng x) := by
  unfold SendEngine.handleDelivered
  split
  · exact h.completeTransfer x
  · exact h

theorem tick (x : String) (now nowRetransmit : ℚ) (ok : Nat → Bool) :
    StoreMarks (retransmitChunks (checkTimeouts cfg eng now) x nowRetransmit ok).1 :=
  h.calm ((calm_checkTimeouts cfg eng now).trans (calm_retransmitChunks _ x nowRetransmit ok))
    (store_retransmitChunks _ x nowRetransmit ok)

theorem sendFile (fec : FECConfig) (srcNodeId : String) {filePath destination bundleId : String}
    {fileData : Bytes} {fecEnabled : Bool} {now : ℚ} {ok : Nat → Bool}
    {r : SendEngine × List Message}
    (hr : SendEngine.sendFile cfg fec srcNodeId eng filePath fileData destination fecEnabled
      bundleId now ok = some r) :
    StoreMarks r.1 := by
  obtain ⟨chunks, row₀, -, hsending, rfl⟩ := sendFile_eq_some cfg hr
  refine StoreMarks.calm (fun y row hrow hd => ?_) (calm_sendWindow _ _ _ _)
    (store_sendWindow _ _ _ _)
  simp only [Store.loadBundle, bundles_foldl_saveChunk, Store.saveBundle, Dict.get?_insert,
    Dict.get?_erase] at hrow
  split at hrow
  · cases hrow; exact absurd (hsending.symm.trans hd) (by simp)
  · rename_i hy
    obtain ⟨sy, hsy, hcy⟩ := h y row hrow hd
    exact ⟨sy, by simp [Dict.get?_insert, hy, hsy], hcy⟩

end StoreMarks

/-- What `handle_sack` of the acked set `acked` does to the state of its own bundle: it takes
    the set in, keeps the chunk count and a completion, and completes the state only when its
    acked set has the chunk count's size. -/
structure SackEffect (acked : Finset Nat) (st st' : SendState) : Prop where
  acked : st'.ackedChunks = st.ackedChunks ∪ acked
  totalChunks : st'.totalChunks = st.totalChunks
  keep : st.completed → st'.completed
  complete : st'.completed → st.completed ∨ st.totalChunks ≤ st'.ackedChunks.card

theorem SackEffect.keeps {acked : Finset Nat} {st st₁ st₂ : SendState} (he : SackEffect acked st st₁)
    (hk : KeepsWindow st₁ st₂) (hc : st₂.completed = st₁.completed) : SackEffect acked st st₂ :=
  ⟨hk.acked.trans he.acked, hk.totalChunks.trans he.totalChunks, fun h => hc ▸ he.keep h,
    fun h => by rw [hk.acked]; exact he.complete (hc ▸ h)⟩

theorem sackEffect_sackState (now : ℚ) (st : SendState) (acked : Finset Nat) :
    SackEffect acked st (sackState cfg now st acked) :=
  have hc := (sackState_queue cfg now st acked).2
  ⟨(sackState_spec cfg now st acked).1, (sackState_spec cfg now st acked).2.1,
    fun h => hc ▸ h, fun h => Or.inl (hc ▸ h)⟩

theorem handleSack_self (eng : SendEngine) (x : String) (acked : Finset Nat) (now nowSend : ℚ)
    (ok : Nat → Bool) {st' : SendState}
    (h : (handleSack cfg eng x acked now nowSend ok).1.activeSends.get? x = some st') :
    ∃ st, eng.activeSends.get? x = some st ∧ SackEffect acked st st' := by
  unfold handleSack at h
  split at h
  · rename_i hget; rw [hget] at h; cases h
  · rename_i st hget
    refine ⟨st, hget, ?_⟩
    have base := sackEffect_sackState cfg now st acked
    dsimp only at h
    split at h
    · rename_i hcard
      simp only [get?_completeTransfer, if_true, Dict.get?_insert, Option.map_some',
        Option.some.injEq] at h
      subst h
      exact ⟨base.acked, base.totalChunks, fun _ => rfl,
        fun _ => Or.inr (base.totalChunks ▸ hcard)⟩
    · split at h
      · obtain ⟨s₀, h₀, hk, hc⟩ := (calm_sendWindow _ x nowSend ok).states x st' h
        simp only [Dict.get?_insert, if_true, Option.some.injEq] at h₀
        subst h₀
        exact base.keeps hk hc
      · simp only [Dict.get?_insert, if_true, Option.some.injEq] at h
        exact h ▸ base

theorem get?_handleDelivered_ne (eng : SendEngine) {x y : String} (hy : y ≠ x) :
    (handleDelivered eng x).activeSends.get? y = eng.activeSends.get? y := by
  unfold handleDelivered
  split
  · simp [get?_completeTransfer, hy]
  · rfl

theorem handleDelivered_self (eng : SendEngine) (x : String) {st' : SendState}
    (h : (handleDelivered eng x).activeSends.get? x = some st') :
    ∃ st, eng.activeSends.get? x = some st ∧ st'.ackedChunks = st.ackedChunks ∧
      st'.totalChunks = st.totalChunks := by
  unfold handleDelivered at h
  split at h
  · simp only [get?_completeTransfer, if_true, Option.map_eq_some'] at h
    obtain ⟨st, hst, rfl⟩ := h
    exact ⟨st, hst, rfl, rfl⟩
  · exact ⟨st', h, rfl, rfl⟩

end SendEngine

/-! ## What each side's state backs -/

/-- What a datagram the receiver sent claims, read against the receiver `r`: a SACK acks only
    ids `r` holds for its bundle, and a DELIVERED names a delivered bundle. -/
def Backed (r : ReceiveEngine) : Decoded → Prop
  | .sack sm => ∃ rs, r.activeReceives.get? sm.bundleId = some rs ∧ sm.ackedSet ⊆ rs.receivedChunks
  | .delivered m => ∃ rs, r.activeReceives.get? m.bundleId = some rs ∧ rs.delivered
  | _ => True

/-- The receiver `r'` has every state of `r`, grown. -/
def Keeps (r r' : ReceiveEngine) : Prop :=
  ∀ x rs, r.activeReceives.get? x = some rs →
    ∃ rs', r'.activeReceives.get? x = some rs' ∧ ReceiveEngine.Grows rs rs'

theorem ReceiveEngine.RecvStep.keeps {N B : Nat} {bid : String} {r r' : ReceiveEngine}
    {msgs : List Message} (s : ReceiveEngine.RecvStep N B bid r r' msgs) : Keeps r r' :=
  fun x rs h => if hx : x = bid then hx ▸ s.grows rs (hx ▸ h)
    else ⟨rs, (s.other x hx).trans h, ReceiveEngine.Grows.refl rs⟩

theorem Backed.mono {r r' : ReceiveEngine} (hk : Keeps r r') {dec : Decoded} (h : Backed r dec) :
    Backed r' dec := by
  cases dec
  case sack sm =>
    obtain ⟨rs, hrs, hsub⟩ := h
    obtain ⟨rs', h', hg⟩ := hk _ rs hrs
    exact ⟨rs', h', hsub.trans hg.received⟩
  case delivered m =>
    obtain ⟨rs, hrs, hd⟩ := h
    obtain ⟨rs', h', hg⟩ := hk _ rs hrs
    exact ⟨rs', h', hg.delivered hd⟩
  all_goals trivial

/-- The sender's state `st` of bundle `x`, read against the receiver `r`: nothing acked and not
    completed, or its acked ids held by `r`'s state of `x`, and completed only once that state
    is delivered or holds every id below the chunk count. -/
def Covered (r : ReceiveEngine) (x : String) (st : SendState) : Prop :=
  st.ackedChunks = ∅ ∧ st.completed = false ∨
    ∃ rs, r.activeReceives.get? x = some rs ∧ st.ackedChunks ⊆ rs.receivedChunks ∧
      (st.completed → rs.delivered ∨ ∀ c < st.totalChunks, c ∈ rs.receivedChunks)

/-- A set of ids below `n` with at least `n` ids holds every id below `n`. -/
theorem all_of_card_le {S R : Finset Nat} {n : Nat} (hsub : S ⊆ R) (hR : ∀ c ∈ R, c < n)
    (hn : n ≤ S.card) : ∀ c < n, c ∈ R := by
  have hS : S ⊆ Finset.range n := fun c hc => Finset.mem_range.mpr (hR c (hsub hc))
  have heq := Finset.eq_of_subset_of_card_le hS (by simpa using hn)
  exact fun c hc => hsub (heq ▸ Finset.mem_range.mpr hc)

namespace Covered

variable {r : ReceiveEngine} {x : String} {st : SendState}

theorem mono {r' : ReceiveEngine} (hk : Keeps r r') (h : Covered r x st) : Covered r' x st := by
  rcases h with h | ⟨rs, hrs, hsub, hc⟩
  · exact Or.inl h
  · obtain ⟨rs', h', hg⟩ := hk x rs hrs
    exact Or.inr ⟨rs', h', hsub.trans hg.received,
      fun h => (hc h).imp hg.delivered fun hall c hc => hg.received (hall c hc)⟩

theorem keeps {st' : SendState} (hk : SendEngine.KeepsWindow st st') (hc : st'.completed = st.completed)
    (h : Covered r x st) : Covered r x st' := by
  unfold Covered; rw [hk.acked, hk.totalChunks, hc]; exact h

theorem subset (h : Covered r x st) {rs : ReceiveState} (hrs : r.activeReceives.get? x = some rs) :
    st.ackedChunks ⊆ rs.receivedChunks := by
  rcases h with ⟨h0, -⟩ | ⟨rs₀, h₀, hsub, -⟩
  · rw [h0]; exact Finset.empty_subset _
  · rw [hrs, Option.some.injEq] at h₀; exact h₀ ▸ hsub

/-- `handle_sack` of a set the receiver holds, all below the chunk count, keeps the state
    covered: a completion by the acked set's size means the receiver holds every id. -/
theorem sack {rs : ReceiveState} {A : Finset Nat} {st' : SendState} (h : Covered r x st)
    (hrs : r.activeReceives.get? x = some rs) (hA : A ⊆ rs.receivedChunks)
    (hR : ∀ c ∈ rs.receivedChunks, c < st.totalChunks) (he : SendEngine.SackEffect A st st') :
    Covered r x st' := by
  have hsub : st'.ackedChunks ⊆ rs.receivedChunks :=
    he.acked ▸ Finset.union_subset (h.subset hrs) hA
  refine Or.inr ⟨rs, hrs, hsub, fun hc => ?_⟩
  rw [he.totalChunks]
  rcases he.complete hc with hc₀ | hcard
  · rcases h with ⟨-, hf⟩ | ⟨rs₀, h₀, -, hold⟩
    · rw [hf] at hc₀; cases hc₀
    · rw [hrs, Option.some.injEq] at h₀; exact h₀ ▸ hold hc₀
  · exact Or.inr (all_of_card_le hsub hR hcard)

/-- A state of a delivered bundle may complete. -/
theorem deliver {rs : ReceiveState} {st' : SendState} (h : Covered r x st)
    (hrs : r.activeReceives.get? x = some rs) (hd : rs.delivered)
    (ha : st'.ackedChunks = st.ackedChunks) : Covered r x st' :=
  Or.inr ⟨rs, hrs, ha ▸ h.subset hrs, fun _ => Or.inl hd⟩

end Covered

/-! ## The invariant of a transfer -/

/-- A DATA message of bundle `b` of `N < 2 ^ 32` chunks, with an id below `N`. -/
def DataOf (b : String) (N : Nat) (dm : DataMsg) : Prop :=
  dm.bundleId = b ∧ dm.chunkId < N ∧ dm.totalChunks = N ∧ N < 2 ^ 32

/-- The invariant of a transfer of bundle `b` of `N` chunks: both sides hold only `b`, every
    datagram on the way to the receiver is a DATA message of `b`, every datagram on the way to
    the sender is backed by the receiver, and every sender state is covered. -/
structure LinkInv (b : String) (N : Nat) (s : Transfer) : Prop where
  tidy : SendEngine.Tidy s.sender
  marks : SendEngine.StoreMarks s.sender
  sends : ∀ x st, s.sender.activeSends.get? x = some st →
    x = b ∧ st.totalChunks = N ∧ Covered s.receiver x st
  receives : ∀ x rs, s.receiver.activeReceives.get? x = some rs →
    x = b ∧ ReceiveEngine.RecvInv N N x rs ∧ N < 2 ^ 32
  toReceiver : ∀ d ∈ s.toReceiver, ∃ dm, receiveDatagram d = some (.data dm) ∧ DataOf b N dm
  toSender : ∀ d ∈ s.toSender, ∀ dec, receiveDatagram d = some dec → Backed s.receiver dec

section Link

variable {b : String} (hb : BundleIdOk b) {N : Nat}
include hb

/-- What the sender sends goes on the link as DATA of `b` below the chunk count. -/
theorem wire_sentBy {e : SendEngine} (ht : SendEngine.Tidy e)
    (hs : ∀ x st, e.activeSends.get? x = some st → x = b ∧ st.totalChunks = N)
    {msgs : List Message} (hm : ∀ m ∈ msgs, SendEngine.SentBy e m) :
    ∀ d ∈ wire msgs, ∃ dm, receiveDatagram d = some (.data dm) ∧ DataOf b N dm := by
  intro d hd
  obtain ⟨m, hm', hser, hlen⟩ := mem_wire hd
  obtain ⟨x, st, dm, hx, rfl, hbid, hc, htot⟩ := hm m hm'
  obtain ⟨rfl, hN⟩ := hs x st hx
  have hwe : st.windowEnd ≤ st.totalChunks := by
    rw [(ht.states x st hx).windowEnd_eq]; exact min_le_right _ _
  have hlt := (serializeMessage_data_spec hser).1.2.1
  exact ⟨dm, receiveDatagram_data (hbid ▸ hb) hser hlen, hbid, by omega, by omega, by omega⟩

/-- What the receiver sends goes on the link backed by the receiver. -/
theorem wire_recvSent {r : ReceiveEngine}
    (hr : ∀ x rs, r.activeReceives.get? x = some rs →
      x = b ∧ ReceiveEngine.RecvInv N N x rs ∧ N < 2 ^ 32)
    {msgs : List Message} (hm : ∀ m ∈ msgs, ReceiveEngine.RecvSent r m) :
    ∀ d ∈ wire msgs, ∀ dec, receiveDatagram d = some dec → Backed r dec := by
  intro d hd dec hdec
  obtain ⟨m, hm', hser, hlen⟩ := mem_wire hd
  obtain ⟨x, rs, hx, hsent⟩ := hm m hm'
  obtain ⟨rfl, hinv, hN⟩ := hr x rs hx
  rcases hsent with rfl | ⟨hdel, rfl | ⟨n, rfl⟩⟩
  · obtain ⟨sm, hsm, hid, hsub⟩ := receiveDatagram_makeSackMsg hb
      (fun c hc => by have := hinv.received c (mem_sortedIds.mp hc); omega) hser hlen
    rw [hsm, Option.some.injEq] at hdec
    subst hdec
    exact ⟨rs, hid ▸ hx, fun c hc => by simpa [mem_sortedIds] using hsub hc⟩
  · rw [receiveDatagram_makeDeliveredMsg hb hser, Option.some.injEq] at hdec
    subst hdec
    exact ⟨rs, hx, hdel⟩
  · obtain ⟨_, _, hca⟩ := receiveDatagram_makeCustodyAckMsg hb hser hlen
    rw [hca, Option.some.injEq] at hdec
    subst hdec
    trivial

variable (cfg : TransferConfig) (fec : FECConfig) (srcNodeId nodeId outputDir srcAddr : String)

theorem LinkInv.deliverData {s : Transfer} (h : LinkInv b N s) (i : Nat) (writeOk : Bool)
    (ackNonce : Nat) :
    LinkInv b N (Transfer.deliverData cfg fec nodeId outputDir srcAddr s i writeOk ackNonce) := by
  unfold Transfer.deliverData
  split
  · rename_i m hm
    obtain ⟨d, hd, hdec⟩ := Option.bind_eq_some.mp hm
    obtain ⟨dm, hdm, hbid, hc, ht, hN⟩ := h.toReceiver d (List.get?_mem hd)
    rw [hdm, Option.some.injEq, Decoded.data.injEq] at hdec
    subst hdec
    have st := ReceiveEngine.handleData_inv cfg fec nodeId outputDir
      (fun x rs hx => (h.receives x rs hx).2.1) hc ht (fun _ => rfl) srcAddr writeOk ackNonce
    have hrecv : ∀ x rs, (ReceiveEngine.handleData cfg fec nodeId outputDir s.receiver dm srcAddr
        writeOk ackNonce).1.activeReceives.get? x = some rs →
        x = b ∧ ReceiveEngine.RecvInv N N x rs ∧ N < 2 ^ 32 := fun x rs hx => by
      refine ⟨?_, st.inv x rs hx, hN⟩
      by_cases hxb : x = dm.bundleId
      · exact hxb.trans hbid
      · rw [st.other x hxb] at hx; exact (h.receives x rs hx).1
    refine ⟨h.tidy, h.marks, fun x st' hx => ?_, hrecv, h.toReceiver, fun d hd => ?_⟩
    · obtain ⟨h1, h2, h3⟩ := h.sends x st' hx
      exact ⟨h1, h2, h3.mono st.keeps⟩
    · rcases List.mem_append.mp hd with hd | hd
      · exact fun dec hdec => (h.toSender d hd dec hdec).mono st.keeps
      · exact wire_recvSent hb hrecv st.sent d hd
  · exact h

theorem LinkInv.deliverAck {s : Transfer} (h : LinkInv b N s) (i : Nat) (now nowSend : ℚ)
    (ok : Nat → Bool) : LinkInv b N (Transfer.deliverAck cfg s i now nowSend ok) := by
  unfold Transfer.deliverAck
  split
  · rename_i m hm
    obtain ⟨d, hd, hdec⟩ := Option.bind_eq_some.mp hm
    obtain ⟨rs, hrs, hsub⟩ := h.toSender d (List.get?_mem hd) _ hdec
    have t := h.tidy.handleSack cfg m.bundleId m.ackedSet now nowSend ok
    have hsends : ∀ x st', (SendEngine.handleSack cfg s.sender m.bundleId m.ackedSet now nowSend
        ok).1.activeSends.get? x = some st' →
        x = b ∧ st'.totalChunks = N ∧ Covered s.receiver x st' := by
      intro x st' hx
      by_cases hxm : x = m.bundleId
      · subst hxm
        obtain ⟨st, hst, he⟩ := SendEngine.handleSack_self cfg _ _ _ _ _ _ hx
        obtain ⟨h1, h2, h3⟩ := h.sends _ st hst
        exact ⟨h1, he.totalChunks.trans h2, h3.sack hrs hsub
          (fun c hc => h2 ▸ (h.receives _ rs hrs).2.1.received c hc) he⟩
      · rw [SendEngine.get?_handleSack_ne cfg _ hxm] at hx
        exact h.sends x st' hx
    refine ⟨t.1, h.marks.handleSack cfg _ _ _ _ _, hsends, h.receives, fun d hd => ?_, h.toSender⟩
    rcases List.mem_append.mp hd with hd | hd
    · exact h.toReceiver d hd
    · exact wire_sentBy hb t.1 (fun x st hx => ⟨(hsends x st hx).1, (hsends x st hx).2.1⟩) t.2 d hd
  · rename_i m hm
    obtain ⟨d, hd, hdec⟩ := Option.bind_eq_some.mp hm
    obtain ⟨rs, hrs, hdel⟩ := h.toSender d (List.get?_mem hd) _ hdec
    refine ⟨h.tidy.handleDelivered _, h.marks.handleDelivered _, fun x st' hx => ?_, h.receives,
      h.toReceiver, h.toSender⟩
    by_cases hxm : x = m.bundleId
    · subst hxm
      obtain ⟨st, hst, ha, ht⟩ := SendEngine.handleDelivered_self _ _ hx
      obtain ⟨h1, h2, h3⟩ := h.sends _ st hst
      exact ⟨h1, ht.trans h2, h3.deliver hrs hdel ha⟩
    · rw [SendEngine.get?_handleDelivered_ne _ hxm] at hx
      exact h.sends x st' hx
  · exact h

theorem LinkInv.tick {s : Transfer} (h : LinkInv b N s) (x : String) (now nowRetransmit : ℚ)
    (ok : Nat → Bool) :
    LinkInv b N (Transfer.step cfg fec srcNodeId nodeId outputDir srcAddr s
      (.tick x now nowRetransmit ok)) := by
  have hc := (SendEngine.calm_checkTimeouts cfg s.sender now).trans
    (SendEngine.calm_retransmitChunks _ x nowRetransmit ok)
  have t := (h.tidy.checkTimeouts cfg now).retransmitChunks x nowRetransmit ok
  have hsends : ∀ y st', (SendEngine.retransmitChunks (SendEngine.checkTimeouts cfg s.sender now) x
      nowRetransmit ok).1.activeSends.get? y = some st' →
      y = b ∧ st'.totalChunks = N ∧ Covered s.receiver y st' := fun y st' hy => by
    obtain ⟨st, hst, hk, hcomp⟩ := hc.states y st' hy
    obtain ⟨h1, h2, h3⟩ := h.sends y st hst
    exact ⟨h1, hk.totalChunks.trans h2, h3.keeps hk hcomp⟩
  refine ⟨t.1, h.marks.tick cfg x now nowRetransmit ok, hsends, h.receives, fun d hd => ?_,
    h.toSender⟩
  rcases List.mem_append.mp hd with hd | hd
  · exact h.toReceiver d hd
  · exact wire_sentBy hb t.1 (fun y st hy => ⟨(hsends y st hy).1, (hsends y st hy).2.1⟩) t.2 d hd

/-- Every event but a new `send_file` keeps the invariant. -/
theorem LinkInv.step {s : Transfer} (h : LinkInv b N s) (op : TransferOp)
    (hop : op.isSendFile = false) :
    LinkInv b N (Transfer.step cfg fec srcNodeId nodeId outputDir srcAddr s op) := by
  cases op with
  | sendFile => cases hop
  | deliverData i writeOk ackNonce => exact h.deliverData hb cfg fec nodeId outputDir srcAddr i writeOk ackNonce
  | deliverAck i now nowSend ok => exact h.deliverAck hb cfg i now nowSend ok
  | tick x now nowRetransmit ok => exact h.tick hb cfg fec srcNodeId nodeId outputDir srcAddr x now nowRetransmit ok

theorem LinkInv.run {s : Transfer} (h : LinkInv b N s) (ops : List TransferOp)
    (hops : ∀ op ∈ ops, op.isSendFile = false) :
    LinkInv b N (Transfer.run cfg fec srcNodeId nodeId outputDir srcAddr s ops) := by
  induction ops generalizing s with
  | nil => exact h
  | cons op ops ih =>
    exact ih (h.step hb cfg fec srcNodeId nodeId outputDir srcAddr op (hops op (List.mem_cons_self _ _)))
      fun op hop => hops op (List.mem_cons_of_mem _ hop)

/-- `send_file` from two fresh nodes starts the invariant. -/
theorem linkInv_sendFile (filePath : String) (fileData : Bytes) (destination : String)
    (fecEnabled : Bool) (now : ℚ) (ok : Nat → Bool) :
    ∃ N, LinkInv b N (Transfer.step cfg fec srcNodeId nodeId outputDir srcAddr Transfer.init
      (.sendFile filePath fileData destination fecEnabled b now ok)) := by
  have h₀ : SendEngine.Tidy {} :=
    SendEngine.tidy_fresh ({} : SendEngine).store fun _ _ hk => by cases hk
  have m₀ : SendEngine.StoreMarks {} := fun _ _ hrow => by cases hrow
  cases hr : SendEngine.sendFile cfg fec srcNodeId {} filePath fileData destination fecEnabled b
      now ok with
  | none =>
    refine ⟨0, ?_⟩
    simp only [Transfer.step, Transfer.init, SendEngine.step, hr, Option.getD_none]
    exact ⟨h₀, m₀, fun x st hx => (by cases hx), fun x rs hx => (by cases hx), by simp [wire],
      by simp⟩
  | some r =>
    have t := h₀.sendFile cfg fec srcNodeId hr
    obtain ⟨N, hs⟩ : ∃ N, ∀ x st, r.1.activeSends.get? x = some st →
        x = b ∧ st.totalChunks = N ∧ st.ackedChunks = ∅ ∧ st.completed = false := by
      obtain ⟨chunks, -, -, -, rfl⟩ := SendEngine.sendFile_eq_some cfg hr
      refine ⟨chunks.length, fun x st hx => ?_⟩
      obtain ⟨st₀, h₀', hk, hcomp⟩ := (SendEngine.calm_sendWindow _ _ _ _).states x st hx
      simp only [Dict.get?_insert, Dict.get?_empty] at h₀'
      split at h₀'
      · cases h₀'; exact ⟨‹_›, hk.totalChunks, hk.acked, hcomp⟩
      · cases h₀'
    refine ⟨N, ?_⟩
    simp only [Transfer.step, Transfer.init, SendEngine.step, hr, Option.getD_some]
    exact ⟨t.1, m₀.sendFile cfg fec srcNodeId hr,
      fun x st hx => ⟨(hs x st hx).1, (hs x st hx).2.1, Or.inl (hs x st hx).2.2⟩,
      fun x rs hx => (by cases hx),
      fun d hd => wire_sentBy hb t.1 (fun x st hx => ⟨(hs x st hx).1, (hs x st hx).2.1⟩) t.2 d
        (by simpa using hd),
      by simp⟩

end Link

section Completion

variable (cfg : TransferConfig) (fec : FECConfig) (srcNodeId nodeId outputDir srcAddr : String)

/-- Over a link that loses, duplicates and reorders datagrams, with output writes that may
    fail, the sender completes a bundle, and stores it as `delivered`, only once the receiver
    has delivered it or holds every chunk id below the chunk count. -/
theorem completed_only_after_receipt (bundleId : String) (hb : BundleIdOk bundleId)
    (filePath : String) (fileData : Bytes) (destination : String) (fecEnabled : Bool) (now : ℚ)
    (ok : Nat → Bool) (ops : List TransferOp) (hops : ∀ op ∈ ops, op.isSendFile = false) :
    let s : Transfer := Transfer.run cfg fec srcNodeId nodeId outputDir srcAddr Transfer.init
      (.sendFile filePath fileData destination fecEnabled bundleId now ok :: ops)
    (∀ st, s.sender.activeSends.get? bundleId = some st → st.completed →
      ∃ rs, s.receiver.activeReceives.get? bundleId = some rs ∧
        (rs.delivered ∨ ∀ c < st.totalChunks, c ∈ rs.receivedChunks)) ∧
    (∀ row, s.sender.store.loadBundle bundleId = some row → row.state = "delivered" →
      ∃ st, s.sender.activeSends.get? bundleId = some st ∧ st.completed) := by
  obtain ⟨N, h₀⟩ := linkInv_sendFile hb cfg fec srcNodeId nodeId outputDir srcAddr filePath fileData
    destination fecEnabled now ok
  have h := h₀.run hb cfg fec srcNodeId nodeId outputDir srcAddr ops hops
  refine ⟨fun st hst hc => ?_, h.marks bundleId⟩
  rcases (h.sends _ st hst).2.2 with ⟨-, hf⟩ | ⟨rs, hrs, -, hall⟩
  · rw [hf] at hc; cases hc
  · exact ⟨rs, hrs, hall hc⟩

/-- The run of `sender_completes_before_failed_write`: the completed sender state's receiver
    holds chunk `0`, the only one. -/
theorem completed_only_after_receipt_failedWrite :
    BundleIdOk "b" ∧
      (∀ op ∈ [TransferOp.deliverData 0 false 7, .deliverAck 0 10 10 fun _ => true],
        op.isSendFile = false) ∧
    let s : Transfer := Transfer.run
      { chunkSize := 1, windowSize := 1, baseRtoMs := 200, maxRtoMs := 500 } {} "A" "B" "recv"
      "h:1" Transfer.init [.sendFile "f" [7] "B" false "b" 0 (fun _ => true),
        .deliverData 0 false 7, .deliverAck 0 10 10 fun _ => true]
    (∀ st, s.sender.activeSends.get? "b" = some st → st.completed →
      ∃ rs, s.receiver.activeReceives.get? "b" = some rs ∧
        (rs.delivered ∨ ∀ c < st.totalChunks, c ∈ rs.receivedChunks)) ∧
    (∀ row, s.sender.store.loadBundle "b" = some row → row.state = "delivered" →
      ∃ st, s.sender.activeSends.get? "b" = some st ∧ st.completed) :=
  ⟨by decide, by decide, completed_only_after_receipt
    { chunkSize := 1, windowSize := 1, baseRtoMs := 200, maxRtoMs := 500 } {} "A" "B" "recv" "h:1"
    "b" (by decide) "f" [7] "B" false 0 (fun _ => true) _ (by decide)⟩

end Completion

end Courier
