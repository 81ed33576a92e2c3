import Courier.ReceiveEngine

/-
  Courier: what the receive path keeps.

  Suppose every DATA message a receiver gets carries the chunk count `N` and an id below `B`.
  Then every state it holds (`RecvInv N B`) sits under its own bundle id, has `N` chunks,
  has received only ids below `B`, holds data only for received ids, and uses FEC only when
  `B = N`, expecting at most `N` data chunks (`B = N` bounds the sender's whole range; a smaller
  `B` is a window that never moves). `handle_data` keeps this (`handleData_inv`); it only grows a state's received ids and
  never takes back a delivery; its SACKs list exactly the received ids, and it sends DELIVERED
  and CUSTODY_ACK only for a delivered state; and it writes a file only when it delivers, which
  it does only once every data chunk is there.
-/

namespace Courier

namespace ReceiveEngine

/-- The invariant of a state of bundle `x` whose DATA messages carry `N` chunks and ids
    below `B`. -/
structure RecvInv (N B : Nat) (x : String) (rs : ReceiveState) : Prop where
  bundleId : rs.bundleId = x
  totalChunks : rs.totalChunks = N
  received : ∀ c ∈ rs.receivedChunks, c < B
  data : ∀ c, (rs.dataChunks.get? c).isSome → c ∈ rs.receivedChunks
  fec : rs.fecEnabled → B = N ∧ rs.numDataChunks ≤ N
  numData : rs.fecEnabled = false → rs.numDataChunks = rs.totalChunks

/-- A later state of the same bundle: more received ids, and a delivery kept. -/
structure Grows (rs rs' : ReceiveState) : Prop where
  received : rs.receivedChunks ⊆ rs'.receivedChunks
  delivered : rs.delivered → rs'.delivered

theorem Grows.refl (rs : ReceiveState) : Grows rs rs := ⟨subset_rfl, id⟩

theorem Grows.trans {rs₁ rs₂ rs₃ : ReceiveState} (h₁ : Grows rs₁ rs₂) (h₂ : Grows rs₂ rs₃) :
    Grows rs₁ rs₃ :=
  ⟨h₁.received.trans h₂.received, h₂.delivered ∘ h₁.delivered⟩

/-- A message a receiver that is now `eng` has sent: the SACK of a state's received ids, or
    DELIVERED or CUSTODY_ACK of a delivered state. -/
def RecvSent (eng : ReceiveEngine) (m : Message) : Prop :=
  ∃ x rs, eng.activeReceives.get? x = some rs ∧
    (m = makeSackMsg x (sortedIds rs.receivedChunks) ∨
      rs.delivered ∧ (m = makeDeliveredMsg x ∨ ∃ n, m = makeCustodyAckMsg x [] n))

variable (cfg : TransferConfig) (fec : FECConfig) (nodeId outputDir : String)

/-! ## The stages of `handle_data` -/

theorem numData_le_of_infer {t k r b n : Nat} (h : inferBlockAndDataCount t k r = some (b, n)) :
    n ≤ t := by
  unfold inferBlockAndDataCount at h
  obtain ⟨B, -, hB⟩ := List.exists_of_findSome?_eq_some h
  split at hB
  · cases hB
  · split at hB
    · cases hB; omega
    · cases hB

/-- A new state: under its bundle id, with its chunk count, nothing received, not delivered;
    under FEC it expects at most `totalChunks` data chunks, and only with FEC enabled. -/
theorem createReceiveState_spec (store : Store) (x : String) (t k r : Nat) (src : String) :
    let rs := (createReceiveState cfg fec nodeId outputDir store x t k r src).2
    rs.bundleId = x ∧ rs.totalChunks = t ∧ rs.receivedChunks = ∅ ∧ rs.dataChunks = ∅ ∧
      rs.delivered = false ∧ (rs.fecEnabled → rs.numDataChunks ≤ t ∧ fec.enabled) ∧
      (rs.fecEnabled = false → rs.numDataChunks = t) := by
  unfold createReceiveState
  by_cases hc : k ≠ 0 ∧ r ≠ 0 ∧ fec.enabled
  · rw [if_pos hc]
    cases hinf : inferBlockAndDataCount t k r with
    | none => exact ⟨rfl, rfl, rfl, rfl, rfl, nofun, fun _ => rfl⟩
    | some p =>
      obtain ⟨b, n⟩ := p
      exact ⟨rfl, rfl, rfl, rfl, rfl, fun _ => ⟨numData_le_of_infer hinf, hc.2.2⟩, nofun⟩
  · rw [if_neg hc]
    exact ⟨rfl, rfl, rfl, rfl, rfl, nofun, fun _ => rfl⟩

/-- A new state's bundle row is saved in state `receiving`, over whatever row the bundle had;
    the chunk and custody rows stay. -/
theorem createReceiveState_store (store : Store) (x : String) (t k r : Nat) (src : String) :
    let s := (createReceiveState cfg fec nodeId outputDir store x t k r src).1
    (s.bundles.get? x).map BundleRow.state = some "receiving" ∧ s.chunks = store.chunks ∧
      s.custody = store.custody := by
  unfold createReceiveState
  simp [Store.saveBundle]

/-- A change of a state that keeps its identity and delivery, grows its received ids by ids
    satisfying `S` only, and adds data only under received ids. -/
structure Takes (S : Nat → Prop) (rs rs' : ReceiveState) : Prop where
  bundleId : rs'.bundleId = rs.bundleId
  totalChunks : rs'.totalChunks = rs.totalChunks
  fecEnabled : rs'.fecEnabled = rs.fecEnabled
  numDataChunks : rs'.numDataChunks = rs.numDataChunks
  delivered : rs'.delivered = rs.delivered
  grows : rs.receivedChunks ⊆ rs'.receivedChunks
  received : ∀ c ∈ rs'.receivedChunks, c ∈ rs.receivedChunks ∨ S c
  data : ∀ c, (rs'.dataChunks.get? c).isSome → (rs.dataChunks.get? c).isSome ∨ c ∈ rs'.receivedChunks

theorem Takes.refl (S : Nat → Prop) (rs : ReceiveState) : Takes S rs rs :=
  ⟨rfl, rfl, rfl, rfl, rfl, subset_rfl, fun _ h => Or.inl h, fun _ h => Or.inl h⟩

theorem Takes.trans {S : Nat → Prop} {rs₁ rs₂ rs₃ : ReceiveState} (h₁ : Takes S rs₁ rs₂)
    (h₂ : Takes S rs₂ rs₃) : Takes S rs₁ rs₃ where
  bundleId := h₂.bundleId.trans h₁.bundleId
  totalChunks := h₂.totalChunks.trans h₁.totalChunks
  fecEnabled := h₂.fecEnabled.trans h₁.fecEnabled
  numDataChunks := h₂.numDataChunks.trans h₁.numDataChunks
  delivered := h₂.delivered.trans h₁.delivered
  grows := h₁.grows.trans h₂.grows
  received c hc := (h₂.received c hc).elim (h₁.received c) Or.inr
  data c hc := (h₂.data c hc).elim (fun h => (h₁.data c h).elim Or.inl fun h => Or.inr (h₂.grows h))
    Or.inr

theorem Takes.mono {S T : Nat → Prop} {rs rs' : ReceiveState} (h : Takes S rs rs')
    (hST : ∀ c, S c → T c) : Takes T rs rs' :=
  { h with received := fun c hc => (h.received c hc).imp_right (hST c) }

theorem RecvInv.takes {N B : Nat} {x : String} {S : Nat → Prop} {rs rs' : ReceiveState}
    (h : RecvInv N B x rs) (ht : Takes S rs rs') (hS : ∀ c, S c → c < B) : RecvInv N B x rs' where
  bundleId := ht.bundleId.trans h.bundleId
  totalChunks := ht.totalChunks.trans h.totalChunks
  received c hc := (ht.received c hc).elim (h.received c) (hS c)
  data c hc := (ht.data c hc).elim (fun h' => ht.grows (h.data c h')) id
  fec hf := ht.numDataChunks ▸ h.fec (ht.fecEnabled ▸ hf)
  numData hf := by rw [ht.numDataChunks, ht.totalChunks]; exact h.numData (ht.fecEnabled ▸ hf)

/-- A change that receives the one id `c` (and keeps everything else but data and parity). -/
theorem takes_receive {S : Nat → Prop} {rs rs' : ReceiveState} {c : Nat} (hS : S c)
    (h1 : rs'.bundleId = rs.bundleId) (h2 : rs'.totalChunks = rs.totalChunks)
    (h3 : rs'.fecEnabled = rs.fecEnabled) (h4 : rs'.numDataChunks = rs.numDataChunks)
    (h5 : rs'.delivered = rs.delivered) (hr : rs'.receivedChunks = insert c rs.receivedChunks)
    (hd : ∀ d, (rs'.dataChunks.get? d).isSome → (rs.dataChunks.get? d).isSome ∨ d = c) :
    Takes S rs rs' where
  bundleId := h1
  totalChunks := h2
  fecEnabled := h3
  numDataChunks := h4
  delivered := h5
  grows := hr ▸ Finset.subset_insert _ _
  received d hd' := by
    rw [hr, Finset.mem_insert] at hd'
    rcases hd' with rfl | h
    · exact Or.inr hS
    · exact Or.inl h
  data d hd' := (hd d hd').imp_right fun (he : d = c) => by
    rw [hr, he]; exact Finset.mem_insert_self _ _

theorem isSome_get?_insert {d : Dict Nat Bytes} {c x : Nat} {v : Bytes}
    (h : ((d.insert c v).get? x).isSome) : (d.get? x).isSome ∨ x = c := by
  rw [Dict.get?_insert] at h
  split at h
  · exact Or.inr ‹_›
  · exact Or.inl h

theorem takes_recordChunk (st : ReceiveState) (msg : DataMsg) :
    Takes (· = msg.chunkId) st (recordChunk st msg) := by
  unfold recordChunk
  dsimp only
  split_ifs
  · exact takes_receive rfl rfl rfl rfl rfl rfl rfl fun _ => isSome_get?_insert
  · exact takes_receive rfl rfl rfl rfl rfl rfl rfl fun _ h => Or.inl h
  · exact takes_receive rfl rfl rfl rfl rfl rfl rfl fun _ => isSome_get?_insert

theorem takes_tryFecReconstruct (st : ReceiveState) (blockId : Nat) (store : Store) :
    Takes (fun c => st.fecEnabled ∧ c < st.numDataChunks) st
      (tryFecReconstruct st blockId store).1 := by
  unfold tryFecReconstruct
  split
  · exact Takes.refl _ _
  · rename_i hfec
    have hon : st.fecEnabled := by simpa using (not_or.mp hfec).1
    split
    · exact Takes.refl _ _
    · dsimp only
      split
      · rename_i missingId hm
        have hmem := (List.mem_filter.mp (hm ▸ List.mem_singleton_self missingId :
          missingId ∈ List.filter _ _)).1
        rw [List.mem_range'_1] at hmem
        exact takes_receive ⟨hon, by omega⟩ rfl rfl rfl rfl rfl rfl fun _ => isSome_get?_insert
      · exact Takes.refl _ _

theorem takes_flush (S : Nat → Prop) (st : ReceiveState) (store : Store) :
    Takes S st (flush st store).1 := by
  unfold flush
  split
  · exact ⟨rfl, rfl, rfl, rfl, rfl, subset_rfl, fun _ h => Or.inl h, fun _ h => Or.inl h⟩
  · exact Takes.refl S st

/-- The new chunk's id, and under FEC a rebuilt data chunk's, are the only ids `takeChunk`
    receives. -/
theorem takes_takeChunk (st : ReceiveState) (msg : DataMsg) (store : Store) :
    Takes (fun c => c = msg.chunkId ∨ st.fecEnabled ∧ c < st.numDataChunks) st
      (takeChunk st msg store).1 := by
  have h₁ := (takes_recordChunk st msg).mono fun c (h : c = msg.chunkId) =>
    (Or.inl h : c = msg.chunkId ∨ st.fecEnabled ∧ c < st.numDataChunks)
  let st₂ := { recordChunk st msg with
    writeBuffer := (recordChunk st msg).writeBuffer ++ [chunkRow (recordChunk st msg) msg] }
  have h₂ : Takes (fun c => c = msg.chunkId ∨ st.fecEnabled ∧ c < st.numDataChunks) st st₂ :=
    h₁.trans ⟨rfl, rfl, rfl, rfl, rfl, subset_rfl, fun _ h => Or.inl h, fun _ h => Or.inl h⟩
  have h₃ : Takes (fun c => c = msg.chunkId ∨ st.fecEnabled ∧ c < st.numDataChunks) st
      (if st₂.fecEnabled then tryFecReconstruct st₂ msg.blockId store else (st₂, store)).1 := by
    split
    · refine h₂.trans ((takes_tryFecReconstruct st₂ msg.blockId store).mono fun c hc => Or.inr ?_)
      rwa [← h₂.fecEnabled, ← h₂.numDataChunks]
    · exact h₂
  exact h₃.trans (takes_flush _ _ _)

/-- `takeChunk` writes only chunk rows. -/
theorem takeChunk_store (st : ReceiveState) (msg : DataMsg) (store : Store) :
    (takeChunk st msg store).2.bundles = store.bundles ∧
      (takeChunk st msg store).2.custody = store.custody := by
  have hflush : ∀ st s, (flush st s).2.bundles = s.bundles ∧ (flush st s).2.custody = s.custody :=
    fun st s => by unfold flush; split <;> exact ⟨rfl, rfl⟩
  have hfec : ∀ st blk, (tryFecReconstruct st blk store).2.bundles = store.bundles ∧
      (tryFecReconstruct st blk store).2.custody = store.custody := fun st blk => by
    unfold tryFecReconstruct
    split
    · exact ⟨rfl, rfl⟩
    · split
      · exact ⟨rfl, rfl⟩
      · dsimp only
        split <;> exact ⟨rfl, rfl⟩
  unfold takeChunk
  dsimp only
  split
  · obtain ⟨h₁, h₂⟩ := hfec _ msg.blockId
    rw [(hflush _ _).1, (hflush _ _).2, h₁, h₂]
    exact ⟨rfl, rfl⟩
  · exact hflush _ _

/-- `_maybe_deliver` either does nothing or, for an undelivered state with every data chunk,
    writes the assembled file, marks the state and the row delivered, and sends DELIVERED and
    CUSTODY_ACK. -/
theorem maybeDeliver_cases (st : ReceiveState) (store : Store) (files : Dict String Bytes)
    (writeOk : Bool) (ackNonce : Nat) :
    maybeDeliver st store files writeOk ackNonce = (st, store, files, []) ∨
      st.delivered = false ∧ (∀ c < st.numData, (st.dataChunks.get? c).isSome) ∧
        maybeDeliver st store files writeOk ackNonce =
          ({ st with delivered := true }, store.updateBundleState st.bundleId "delivered",
            files.insert st.outputPath st.assembled,
            [makeDeliveredMsg st.bundleId, makeCustodyAckMsg st.bundleId [] ackNonce]) := by
  unfold maybeDeliver
  split
  · exact Or.inl rfl
  · split
    · exact Or.inl rfl
    · split
      · exact Or.inl rfl
      · rename_i hd hall _
        refine Or.inr ⟨by simpa using hd, fun c hc => ?_, rfl⟩
        simp only [List.any_eq_true, List.mem_range, Option.isNone_iff_eq_none, not_exists,
          not_and] at hall
        exact Option.isSome_iff_ne_none.mpr (hall c hc)

/-! ## `handle_data` -/

/-- The state `handle_data` works on: the bundle's own, or a new one that holds the invariant
    and is not delivered. -/
theorem stateFor_spec {N B : Nat} {eng : ReceiveEngine}
    (h : ∀ x rs, eng.activeReceives.get? x = some rs → RecvInv N B x rs) {msg : DataMsg}
    (ht : msg.totalChunks = N) (hfec : fec.enabled → B = N) (src : String) :
    RecvInv N B msg.bundleId (stateFor cfg fec nodeId outputDir eng msg src).2 ∧
      ((stateFor cfg fec nodeId outputDir eng msg src).2.delivered →
        ∃ rs, eng.activeReceives.get? msg.bundleId = some rs ∧ rs.delivered) ∧
      ∀ rs, eng.activeReceives.get? msg.bundleId = some rs →
        (stateFor cfg fec nodeId outputDir eng msg src).2 = rs := by
  unfold stateFor
  split
  · rename_i rs hget
    exact ⟨h _ rs hget, fun hd => ⟨rs, hget, hd⟩, fun _ h' => Option.some.inj (hget.symm.trans h')⟩
  · rename_i hget
    obtain ⟨h1, h2, h3, h4, h5, h6, h7⟩ := createReceiveState_spec cfg fec nodeId outputDir
      eng.store msg.bundleId msg.totalChunks msg.k msg.r src
    refine ⟨⟨h1, h2.trans ht, by simp [h3], by simp [h4], fun hf => ?_, fun hf => ?_⟩,
      fun hd => ?_, fun rs h' => ?_⟩
    · obtain ⟨hle, hen⟩ := h6 hf
      exact ⟨hfec hen, ht ▸ hle⟩
    · rw [h7 hf, h2]
    · rw [h5] at hd; cases hd
    · rw [hget] at h'; cases h'

/-- What one `handle_data` does to the receiver `eng`, leaving `eng'` and sending `msgs`. -/
structure RecvStep (N B : Nat) (bid : String) (eng eng' : ReceiveEngine) (msgs : List Message) :
    Prop where
  inv : ∀ x rs, eng'.activeReceives.get? x = some rs → RecvInv N B x rs
  other : ∀ x, x ≠ bid → eng'.activeReceives.get? x = eng.activeReceives.get? x
  grows : ∀ rs, eng.activeReceives.get? bid = some rs →
    ∃ rs', eng'.activeReceives.get? bid = some rs' ∧ Grows rs rs'
  isSome : (eng'.activeReceives.get? bid).isSome
  sent : ∀ m ∈ msgs, RecvSent eng' m
  delivery : ∀ rs', eng'.activeReceives.get? bid = some rs' → rs'.delivered →
    (∃ rs, eng.activeReceives.get? bid = some rs ∧ rs.delivered) ∨
      ∀ c < rs'.numData, (rs'.dataChunks.get? c).isSome
  files : eng'.files = eng.files ∨ ∃ rs', eng'.activeReceives.get? bid = some rs' ∧
    rs'.delivered ∧ ∀ c < rs'.numData, (rs'.dataChunks.get? c).isSome

theorem sendSack_eq {N B : Nat} {x : String} {rs : ReceiveState} (h : RecvInv N B x rs) :
    sendSack rs = makeSackMsg x (sortedIds rs.receivedChunks) := by
  rw [sendSack, h.bundleId]

/-- A step that stores the state `st` under `bid` and leaves every other state: what it must
    show of `st` to be a `RecvStep`. -/
theorem RecvStep.of_insert {N B : Nat} {bid : String} {eng eng' : ReceiveEngine}
    {msgs : List Message} {st : ReceiveState}
    (h : ∀ x rs, eng.activeReceives.get? x = some rs → RecvInv N B x rs)
    (hact : eng'.activeReceives = eng.activeReceives.insert bid st) (hst : RecvInv N B bid st)
    (hgrow : ∀ rs, eng.activeReceives.get? bid = some rs → Grows rs st)
    (hsent : ∀ m ∈ msgs, m = makeSackMsg bid (sortedIds st.receivedChunks) ∨
      st.delivered ∧ (m = makeDeliveredMsg bid ∨ ∃ n, m = makeCustodyAckMsg bid [] n))
    (hdel : st.delivered → (∃ rs, eng.activeReceives.get? bid = some rs ∧ rs.delivered) ∨
      ∀ c < st.numData, (st.dataChunks.get? c).isSome)
    (hfiles : eng'.files = eng.files ∨
      st.delivered ∧ ∀ c < st.numData, (st.dataChunks.get? c).isSome) :
    RecvStep N B bid eng eng' msgs := by
  have hget : eng'.activeReceives.get? bid = some st := by simp [hact]
  refine ⟨fun x rs hx => ?_, fun x hx => by rw [hact, Dict.get?_insert, if_neg hx],
    fun rs hrs => ⟨st, hget, hgrow rs hrs⟩, by simp [hget], fun m hm => ⟨bid, st, hget, hsent m hm⟩,
    fun rs' hrs' hd => ?_, hfiles.imp id fun hf => ⟨st, hget, hf⟩⟩
  · rw [hact, Dict.get?_insert] at hx
    split at hx
    · cases hx; subst x; exact hst
    · exact h x rs hx
  · rw [hget, Option.some.injEq] at hrs'
    subst hrs'
    exact hdel hd

/-- `handle_data` on a DATA message with the chunk count `N` and an id below `B` keeps the
    invariant of every state, grows the message's bundle only, sends only what its states
    back, and writes a file only for a delivered state with every data chunk. -/
theorem handleData_inv {N B : Nat} {eng : ReceiveEngine}
    (h : ∀ x rs, eng.activeReceives.get? x = some rs → RecvInv N B x rs) {msg : DataMsg}
    (hc : msg.chunkId < B) (ht : msg.totalChunks = N) (hfec : fec.enabled → B = N)
    (src : String) (writeOk : Bool) (ackNonce : Nat) :
    RecvStep N B msg.bundleId eng
      (handleData cfg fec nodeId outputDir eng msg src writeOk ackNonce).1
      (handleData cfg fec nodeId outputDir eng msg src writeOk ackNonce).2 := by
  obtain ⟨i₀, hdel₀, hold⟩ := stateFor_spec cfg fec nodeId outputDir h ht hfec src
  set s := stateFor cfg fec nodeId outputDir eng msg src
  unfold handleData
  dsimp only
  split
  · exact RecvStep.of_insert h rfl i₀ (fun rs hrs => hold rs hrs ▸ Grows.refl _)
      (fun m hm => Or.inl (List.mem_singleton.mp hm ▸ sendSack_eq i₀))
      (fun hd => Or.inl (hdel₀ hd)) (Or.inl rfl)
  · set r := takeChunk s.2 msg s.1
    have ht₁ := takes_takeChunk s.2 msg s.1
    have i₁ : RecvInv N B msg.bundleId r.1 :=
      i₀.takes ht₁ fun c hS => hS.elim (fun he => he ▸ hc) fun hf =>
        (i₀.fec hf.1).1 ▸ hf.2.trans_le (i₀.fec hf.1).2
    have hsack : ∀ m ∈ sackAfter r.1, m = makeSackMsg msg.bundleId (sortedIds r.1.receivedChunks) :=
      fun m hm => by
        unfold sackAfter at hm
        split at hm
        · rw [List.mem_singleton.mp hm, sendSack_eq i₁]
        · cases hm
    rcases maybeDeliver_cases r.1 r.2 eng.files writeOk ackNonce with hd | ⟨hnd, hall, hd⟩ <;>
      rw [hd]
    · exact RecvStep.of_insert h rfl i₁ (fun rs hrs => hold rs hrs ▸ ⟨ht₁.grows, (ht₁.delivered ▸ ·)⟩)
        (fun m hm => Or.inl (hsack m (by simpa using hm)))
        (fun hdl => Or.inl (hdel₀ (ht₁.delivered ▸ hdl))) (Or.inl rfl)
    · have i₂ : RecvInv N B msg.bundleId { r.1 with delivered := true } :=
        ⟨i₁.bundleId, i₁.totalChunks, i₁.received, i₁.data, i₁.fec, i₁.numData⟩
      refine RecvStep.of_insert h rfl i₂ (fun rs hrs => hold rs hrs ▸ ⟨ht₁.grows, fun _ => rfl⟩) (fun m hm => ?_)
        (fun _ => Or.inr hall) (Or.inr ⟨rfl, hall⟩)
      rcases List.mem_append.mp hm with hm | hm
      · exact Or.inl (hsack m hm)
      · rw [i₁.bundleId] at hm
        simp only [List.mem_cons, List.mem_singleton, List.not_mem_nil, or_false] at hm
        exact Or.inr ⟨rfl, hm.imp id fun h => ⟨ackNonce, h⟩⟩

end ReceiveEngine

end Courier
