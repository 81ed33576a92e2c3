import Courier.Delivery

/-
  Courier: when a receiver writes the file.

  Model (read this before the theorems). `Progress` is what a state of a faithfully sent bundle
  has made of the ids it received: every data id holds data, every parity id left a parity
  payload for its block, and under FEC no block keeps a parity payload and exactly one missing
  data chunk (`Repaired`). `_try_fec_reconstruct` runs on the block of every new chunk, so the
  chunk that completes a block's single erasure triggers its rebuild. `Settled` adds, while the
  writes of the bundle's file succeed, that a state with every data chunk is delivered and that
  a delivered state's file is written.

  Proved:
  * `receive_writes_sent_file`: every write succeeding, the receiver writes the file sent once
    each data chunk has arrived or, under FEC, is the one data chunk its block lost while the
    block's other data chunks and one of its parity chunks arrived, in any order, with repeats,
    between other bundles' messages.
-/

namespace Courier

namespace ReceiveEngine

variable (cfg : TransferConfig) (fec : FECConfig) (nodeId outputDir : String)

/-! ## Repaired blocks -/

/-- Block `blk` of `st` is not left with a parity payload and exactly one data chunk missing. -/
def Repaired (hdr st : ReceiveState) (blk : Nat) : Prop :=
  ∀ p ps m, st.parityChunks.get? blk = some (p :: ps) →
    (blockIds hdr blk).filter (fun c => (st.dataChunks.get? c).isNone) ≠ [m]

theorem Repaired.congr {hdr st st' : ReceiveState} {blk : Nat} (h : Repaired hdr st blk)
    (hp : st'.parityChunks.get? blk = st.parityChunks.get? blk)
    (hd : ∀ c ∈ blockIds hdr blk, st'.dataChunks.get? c = st.dataChunks.get? c) :
    Repaired hdr st' blk := fun p ps m hps => by
  rw [List.filter_congr fun c hc => by rw [hd c hc]]
  exact h p ps m (hp ▸ hps)

/-- What a state of the bundle of `hdr` has made of the ids it received, when every DATA
    message of it is faithful: every received data id holds data, every received parity id left
    a parity payload for its block, and under FEC no block is left with a parity payload and
    exactly one data chunk missing. -/
structure Progress (hdr st : ReceiveState) : Prop where
  data : ∀ c ∈ st.receivedChunks, c < hdr.numDataChunks → (st.dataChunks.get? c).isSome
  parity : ∀ c ∈ st.receivedChunks, hdr.numDataChunks ≤ c →
    ∃ p ps, st.parityChunks.get? ((c - hdr.numDataChunks) / hdr.r) = some (p :: ps)
  repaired : hdr.fecEnabled = true → ∀ blk, Repaired hdr st blk

/-- The rebuild stage of `takeChunk` repairs the block it is run on and keeps the progress made
    on every received id and every other block. -/
theorem progress_tryFecReconstruct {hdr st : ReceiveState} (hs : st.shape = hdr) (blk₀ : Nat)
    (store : Store)
    (hd : ∀ c ∈ st.receivedChunks, c < hdr.numDataChunks → (st.dataChunks.get? c).isSome)
    (hp : ∀ c ∈ st.receivedChunks, hdr.numDataChunks ≤ c →
      ∃ p ps, st.parityChunks.get? ((c - hdr.numDataChunks) / hdr.r) = some (p :: ps))
    (hr : hdr.fecEnabled = true → ∀ blk, blk ≠ blk₀ → Repaired hdr st blk)
    (hpos : hdr.fecEnabled = true → 0 < hdr.k ∧ 0 < hdr.r ∧ 0 < hdr.numDataChunks) :
    Progress hdr (if st.fecEnabled then tryFecReconstruct st blk₀ store else (st, store)).1 := by
  obtain ⟨-, -, hfe, hke, hre, -, hnd⟩ := ReceiveState.layout_of_shape hs
  have hids : ∀ blk, blockIds st blk = blockIds hdr blk := fun _ => by rw [← hs]; rfl
  split
  · rename_i hf
    obtain ⟨hk, hr', -⟩ := hpos (hfe ▸ hf)
    rcases tryFecReconstruct_cases st blk₀ store with ⟨he, hno⟩ | ⟨p, ps, m, -, -, -, -, hmiss, he⟩
    · rw [he]
      refine ⟨hd, hp, fun _ blk => ?_⟩
      by_cases hb : blk = blk₀
      · subst hb
        intro p ps m hps
        rw [← hids]
        exact hno hf (hke ▸ hk) (hre ▸ hr') p ps m hps
      · exact hr (hfe ▸ hf) blk hb
    · rw [hids] at hmiss
      have hm := (List.mem_filter.mp (hmiss ▸ List.mem_singleton_self m)).1
      rw [mem_blockIds (hpos (hfe ▸ hf)).1] at hm
      rw [he]
      refine ⟨fun c hc hlt => ?_, fun c hc hle => hp c ((Finset.mem_insert.mp hc).resolve_left
        (by rintro rfl; omega)) hle, fun hf' blk => ?_⟩
      · rcases Finset.mem_insert.mp hc with rfl | hc
        · simp
        · exact Dict.isSome_get?_insert_of_isSome (hd c hc hlt)
      · by_cases hb : blk = blk₀
        · -- the rebuilt block misses nothing
          subst hb
          intro p' ps' m' _ hmiss'
          obtain ⟨hm₁, hm₂⟩ := List.mem_filter.mp (hmiss' ▸ List.mem_singleton_self m')
          rw [Dict.get?_insert] at hm₂
          split at hm₂
          · simp at hm₂
          · rename_i hne
            exact hne (List.mem_singleton.mp (hmiss ▸ List.mem_filter.mpr ⟨hm₁, hm₂⟩))
        · refine (hr hf' blk hb).congr rfl fun c hc => ?_
          rw [Dict.get?_insert, if_neg]
          rintro rfl
          rw [mem_blockIds (hpos hf').1] at hc
          exact hb (hc.2.symm.trans hm.2)
  · exact ⟨hd, hp, fun hf => absurd (hfe.trans hf) ‹_›⟩

theorem Progress.flush {hdr st : ReceiveState} (h : Progress hdr st) (store : Store) :
    Progress hdr (ReceiveEngine.flush st store).1 := by
  unfold ReceiveEngine.flush
  split
  · exact ⟨h.data, h.parity, h.repaired⟩
  · exact h

/-- `takeChunk` of a faithful message keeps the progress: the new id is recorded as data, or as
    a parity payload of its block, and the rebuild of that block leaves it repaired. -/
theorem Progress.takeChunk {hdr st : ReceiveState} {k r : Nat} {pay : Nat → Bytes}
    {msg : DataMsg} (h : Progress hdr st) (hs : st.shape = hdr) (hm : Faithful hdr k r pay msg)
    (hpos : hdr.fecEnabled = true → 0 < hdr.k ∧ 0 < hdr.r ∧ 0 < hdr.numDataChunks)
    (store : Store) : Progress hdr (ReceiveEngine.takeChunk st msg store).1 := by
  obtain ⟨-, -, hfe, hke, -, -, hnd⟩ := ReceiveState.layout_of_shape hs
  set st₁ := recordChunk st msg
  have hrec : (∀ c ∈ st₁.receivedChunks, c < hdr.numDataChunks →
        (st₁.dataChunks.get? c).isSome) ∧
      (∀ c ∈ st₁.receivedChunks, hdr.numDataChunks ≤ c →
        ∃ p ps, st₁.parityChunks.get? ((c - hdr.numDataChunks) / hdr.r) = some (p :: ps)) ∧
      (hdr.fecEnabled = true → ∀ blk, blk ≠ msg.blockId → Repaired hdr st₁ blk) := by
    by_cases hc : msg.chunkId < hdr.numDataChunks
    · -- a data chunk
      rw [show st₁ = _ from recordChunk_of_lt st msg (hnd ▸ hc)]
      refine ⟨fun c hc' hlt => ?_, fun c hc' hle => h.parity c ((Finset.mem_insert.mp hc').resolve_left
        (by rintro rfl; omega)) hle, fun hf blk hb => (h.repaired hf blk).congr rfl fun c hc' => ?_⟩
      · rcases Finset.mem_insert.mp hc' with rfl | hc'
        · simp
        · exact Dict.isSome_get?_insert_of_isSome (h.data c hc' hlt)
      · rw [Dict.get?_insert, if_neg]
        rintro rfl
        rw [mem_blockIds (hpos hf).1] at hc'
        exact hb (hc'.2.symm.trans ((hm.data hc).2 hf).symm)
    · -- a parity chunk
      obtain ⟨hf, hblk, -⟩ := hm.parity (Nat.le_of_not_lt hc)
      obtain ⟨hk, -, hnd₀⟩ := hpos hf
      rw [show st₁ = _ from recordChunk_of_le st msg (hfe.trans hf) (hke ▸ hk) (by omega) (by omega)]
      refine ⟨fun c hc' hlt => h.data c ((Finset.mem_insert.mp hc').resolve_left
        (by rintro rfl; omega)) hlt, fun c hc' hle => ?_,
        fun _ blk hb => (h.repaired hf blk).congr ?_ fun _ _ => rfl⟩
      · rw [Dict.get?_insert]
        split
        · cases st.parityChunks.get? msg.blockId with
          | none => exact ⟨msg.payload, [], rfl⟩
          | some ps =>
            cases ps with
            | nil => exact ⟨msg.payload, [], rfl⟩
            | cons p ps => exact ⟨p, ps ++ [msg.payload], rfl⟩
        · rename_i hne
          rcases Finset.mem_insert.mp hc' with rfl | hc'
          · exact absurd hblk.symm hne
          · exact h.parity c hc' hle
      · rw [Dict.get?_insert, if_neg hb]
  unfold ReceiveEngine.takeChunk
  dsimp only
  exact (@progress_tryFecReconstruct hdr
    { st₁ with writeBuffer := st₁.writeBuffer ++ [chunkRow st₁ msg] }
    ((recordChunk_shape st msg).trans hs) msg.blockId store hrec.1 hrec.2.1 hrec.2.2 hpos).flush _

theorem progress_shape (hdr : ReceiveState) : Progress hdr hdr.shape :=
  ⟨(fun _ h => nomatch h), (fun _ h => nomatch h), fun _ _ _ _ _ h => nomatch h⟩

/-! ## Settled bundles -/

/-- What the receiver has made of the bundle of `hdr` while every write of its file succeeds:
    its state has made progress on every id it received, a state holding every data chunk is
    delivered, and a delivered state's file is written. -/
structure Settled (hdr : ReceiveState) (eng : ReceiveEngine) : Prop where
  progress : ∀ st, eng.activeReceives.get? hdr.bundleId = some st → Progress hdr st
  delivered : ∀ st, eng.activeReceives.get? hdr.bundleId = some st →
    (∀ c < st.numData, (st.dataChunks.get? c).isSome) → st.delivered = true
  written : ∀ st, eng.activeReceives.get? hdr.bundleId = some st → st.delivered = true →
    (eng.files.get? hdr.outputPath).isSome

/-- One `handle_data` keeps `Settled`, as long as a message of the bundle is faithful and its
    write, if any, succeeds. -/
theorem Settled.handleData {hdr : ReceiveState} {pay : Nat → Bytes} {k r : Nat}
    {eng : ReceiveEngine} (hI : Intact hdr pay eng) (h : Settled hdr eng)
    (hhdr : headerState cfg fec nodeId outputDir hdr.bundleId hdr.totalChunks k r = hdr)
    (msg : DataMsg) (src : String) (writeOk : Bool) (ackNonce : Nat)
    (hm : msg.bundleId = hdr.bundleId → Faithful hdr k r pay msg ∧ writeOk = true) :
    Settled hdr (handleData cfg fec nodeId outputDir eng msg src writeOk ackNonce).1 := by
  obtain ⟨-, -, hpath, hpos⟩ :=
    headerState_spec cfg fec nodeId outputDir hdr.bundleId hdr.totalChunks k r
  rw [hhdr] at hpath hpos
  have hsh := headerState_shape cfg fec nodeId outputDir hdr.bundleId hdr.totalChunks k r
  rw [hhdr] at hsh
  have hfresh : hdr.receivedChunks = ∅ ∧ hdr.delivered = false ∧ Progress hdr hdr := by
    rw [← hsh]; exact ⟨rfl, rfl, progress_shape _⟩
  set s := stateFor cfg fec nodeId outputDir eng msg src
  -- the state worked on, when it is the bundle's
  have hs : msg.bundleId = hdr.bundleId → s.2.shape = hdr ∧ Progress hdr s.2 ∧
      (s.2.delivered = true → (eng.files.get? hdr.outputPath).isSome) ∧
      (msg.chunkId ∈ s.2.receivedChunks → (∀ c < s.2.numData, (s.2.dataChunks.get? c).isSome) →
        s.2.delivered = true) := fun hb => by
    rcases stateFor_cases cfg fec nodeId outputDir eng msg src with hg | ⟨-, he⟩
    · rw [hb] at hg
      exact ⟨(hI.state _ hg).shape, h.progress _ hg, h.written _ hg, fun _ => h.delivered _ hg⟩
    · obtain ⟨hN, hk, hr⟩ := (hm hb).1.header
      rw [he, hb, hN, hk, hr, hhdr, hfresh.1, hfresh.2.1]
      exact ⟨hsh, hfresh.2.2, nofun, nofun⟩
  have ht : msg.bundleId = hdr.bundleId → Progress hdr (takeChunk s.2 msg s.1).1 := fun hb =>
    (hs hb).2.1.takeChunk (hs hb).1 (hm hb).1 hpos _
  have htp : msg.bundleId = hdr.bundleId → (takeChunk s.2 msg s.1).1.outputPath = hdr.outputPath :=
    fun hb => (ReceiveState.layout_of_shape ((takeChunk_shape s.2 msg s.1).trans (hs hb).1)).2.2.2.2.2.1
  have hdel := (takes_takeChunk s.2 msg s.1).delivered
  have hget : ∀ (eng' : ReceiveEngine) st',
      eng'.activeReceives = eng.activeReceives.insert msg.bundleId st' →
      ∀ st, eng'.activeReceives.get? hdr.bundleId = some st →
        msg.bundleId = hdr.bundleId ∧ st = st' ∨
          msg.bundleId ≠ hdr.bundleId ∧ eng.activeReceives.get? hdr.bundleId = some st :=
    fun eng' st' ha st hst => by
      rw [ha, Dict.get?_insert] at hst
      split at hst
      · rename_i hb; cases hst; exact Or.inl ⟨hb.symm, rfl⟩
      · rename_i hb; exact Or.inr ⟨Ne.symm hb, hst⟩
  rcases handleData_cases cfg fec nodeId outputDir eng msg src writeOk ackNonce with
    ⟨hmem, ha, hf⟩ | ⟨-, hc⟩
  · -- a repeated chunk
    refine ⟨fun st hst => ?_, fun st hst => ?_, fun st hst => ?_⟩ <;>
      rcases hget _ _ ha st hst with ⟨hb, rfl⟩ | ⟨-, hst⟩
    · exact (hs hb).2.1
    · exact h.progress st hst
    · exact (hs hb).2.2.2 hmem
    · exact h.delivered st hst
    · rw [hf]; exact (hs hb).2.2.1
    · rw [hf]; exact h.written st hst
  · split_ifs at hc with hwr
    · -- the file is written
      refine ⟨fun st hst => ?_, fun st hst => ?_, fun st hst hd => ?_⟩ <;>
        rcases hget _ _ hc.1 st hst with ⟨hb, rfl⟩ | ⟨-, hst⟩
      · exact ⟨(ht hb).data, (ht hb).parity, (ht hb).repaired⟩
      · exact h.progress st hst
      · exact fun _ => rfl
      · exact h.delivered st hst
      · rw [hc.2, Dict.get?_insert, if_pos (htp hb).symm]; rfl
      · rw [hc.2]; exact Dict.isSome_get?_insert_of_isSome (h.written st hst hd)
    · -- nothing is written
      refine ⟨fun st hst => ?_, fun st hst => ?_, fun st hst hd => ?_⟩ <;>
        rcases hget _ _ hc.1 st hst with ⟨hb, rfl⟩ | ⟨-, hst⟩
      · exact ht hb
      · exact h.progress st hst
      · exact fun hall => Bool.eq_true_of_not_eq_false fun hd => hwr ⟨hd, hall, (hm hb).2⟩
      · exact h.delivered st hst
      · rw [hc.2]; exact (hs hb).2.2.1 (hdel ▸ hd)
      · rw [hc.2]; exact h.written st hst hd

/-! ## Arrived chunks -/

/-- A state's received ids only grow, and after `handle_data` its message's chunk is received. -/
theorem received_handleData (eng : ReceiveEngine) (msg : DataMsg) (src : String) (writeOk : Bool)
    (ackNonce : Nat) {x : String} {c : Nat}
    (h : (∃ st, eng.activeReceives.get? x = some st ∧ c ∈ st.receivedChunks) ∨
      msg.bundleId = x ∧ msg.chunkId = c) :
    ∃ st, (handleData cfg fec nodeId outputDir eng msg src writeOk ackNonce).1.activeReceives.get? x =
      some st ∧ c ∈ st.receivedChunks := by
  set s := stateFor cfg fec nodeId outputDir eng msg src
  have hs : msg.bundleId = x → c ∈ s.2.receivedChunks ∨ msg.chunkId = c := fun hb => by
    rcases h with ⟨st, hst, hc⟩ | ⟨-, hc⟩
    · rcases stateFor_cases cfg fec nodeId outputDir eng msg src with hg | ⟨hg, -⟩ <;>
        rw [hb, hst] at hg
      · cases hg; exact Or.inl hc
      · cases hg
    · exact Or.inr hc
  have hins : ∀ (eng' : ReceiveEngine) st',
      eng'.activeReceives = eng.activeReceives.insert msg.bundleId st' →
      (msg.bundleId = x → c ∈ st'.receivedChunks) →
      ∃ st, eng'.activeReceives.get? x = some st ∧ c ∈ st.receivedChunks :=
    fun eng' st' ha hc => by
      rw [ha, Dict.get?_insert]
      split
      · rename_i hb; exact ⟨st', rfl, hc hb.symm⟩
      · rename_i hb
        rcases h with h | ⟨hb', -⟩
        · exact h
        · exact absurd hb'.symm hb
  have ht : msg.bundleId = x → c ∈ (takeChunk s.2 msg s.1).1.receivedChunks := fun hb => by
    rcases hs hb with hc | rfl
    · exact (takes_takeChunk s.2 msg s.1).grows hc
    · exact mem_takeChunk s.2 msg s.1
  rcases handleData_cases cfg fec nodeId outputDir eng msg src writeOk ackNonce with
    ⟨hmem, ha, -⟩ | ⟨-, hc⟩
  · exact hins _ _ ha fun hb => (hs hb).elim id fun hc => hc ▸ hmem
  · split_ifs at hc
    · exact hins _ _ hc.1 ht
    · exact hins _ _ hc.1 ht

/-- Some arrival carries chunk `c` of bundle `b`. -/
def Arrives (as : List Arrival) (b : String) (c : Nat) : Prop :=
  ∃ a ∈ as, a.msg.bundleId = b ∧ a.msg.chunkId = c

instance (as : List Arrival) (b : String) (c : Nat) : Decidable (Arrives as b c) :=
  inferInstanceAs (Decidable (∃ a ∈ as, a.msg.bundleId = b ∧ a.msg.chunkId = c))

/-- Every chunk that arrives is received at the end, whatever else arrives. -/
theorem received_receive (eng : ReceiveEngine) (as : List Arrival) {x : String} {c : Nat}
    (h : (∃ st, eng.activeReceives.get? x = some st ∧ c ∈ st.receivedChunks) ∨ Arrives as x c) :
    ∃ st, (receive cfg fec nodeId outputDir eng as).activeReceives.get? x = some st ∧
      c ∈ st.receivedChunks := by
  induction as generalizing eng with
  | nil =>
    rcases h with h | ⟨a, ha, -⟩
    · exact h
    · cases ha
  | cons a as ih =>
    refine ih _ ?_
    rcases h with h | ⟨a', ha', hb, hc⟩
    · exact Or.inl (received_handleData cfg fec nodeId outputDir _ _ _ _ _ (Or.inl h))
    · rcases List.mem_cons.mp ha' with rfl | ha'
      · exact Or.inl (received_handleData cfg fec nodeId outputDir _ _ _ _ _ (Or.inr ⟨hb, hc⟩))
      · exact Or.inr ⟨a', ha', hb, hc⟩

theorem Settled.receive {hdr : ReceiveState} {pay : Nat → Bytes} {k r w : Nat}
    {eng : ReceiveEngine} (hp : Paths outputDir eng) (hI : Intact hdr pay eng)
    (h : Settled hdr eng)
    (hhdr : headerState cfg fec nodeId outputDir hdr.bundleId hdr.totalChunks k r = hdr)
    (hw : hdr.fecEnabled = true → ∀ c < hdr.numDataChunks, (pay c).length = w)
    (as : List Arrival) (has : ∀ a ∈ as, a.msg.bundleId = hdr.bundleId →
      Faithful hdr k r pay a.msg ∧ a.writeOk = true) :
    Settled hdr (receive cfg fec nodeId outputDir eng as) := by
  induction as generalizing eng with
  | nil => exact h
  | cons a as ih =>
    have ha := has a (List.mem_cons_self _ _)
    exact ih (hp.handleData cfg fec nodeId outputDir _ _ _ _)
      (hI.handleData cfg fec nodeId outputDir hp hhdr hw a.msg (fun hb => (ha hb).1) _ _ _)
      (h.handleData cfg fec nodeId outputDir hI hhdr a.msg _ _ _ ha)
      fun a' ha' => has a' (List.mem_cons_of_mem _ ha')

theorem eq_singleton_of_nodup {l : List Nat} {c : Nat} (hnd : l.Nodup) (hc : c ∈ l)
    (h : ∀ x ∈ l, x = c) : l = [c] := by
  cases l with
  | nil => cases hc
  | cons x l =>
    obtain ⟨hx, -⟩ := List.nodup_cons.mp hnd
    have hxc := h x (List.mem_cons_self _ _)
    cases l with
    | nil => rw [hxc]
    | cons y l =>
      have hyc := h y (List.mem_cons_of_mem _ (List.mem_cons_self _ _))
      exact absurd (hxc ▸ hyc ▸ List.mem_cons_self y l) hx

/-! ## The file written -/

/-- A settled receiver writes the file once the ids its state of the bundle received cover the
    data: each data id was received or, under FEC, is the one id of its block missing while the
    block's other data ids and one of its parity ids were received. -/
theorem Settled.file_written {hdr : ReceiveState} {pay : Nat → Bytes} {e : ReceiveEngine}
    (hI : Intact hdr pay e) (hS : Settled hdr e) (hpos : 0 < hdr.numDataChunks)
    (hkr : hdr.fecEnabled = true → 0 < hdr.k ∧ 0 < hdr.r) {st : ReceiveState}
    (hst : e.activeReceives.get? hdr.bundleId = some st)
    (hcover : ∀ c < hdr.numDataChunks, c ∈ st.receivedChunks ∨ hdr.fecEnabled = true ∧
      (∀ c' < hdr.numDataChunks, c' / hdr.k = c / hdr.k → c' ≠ c → c' ∈ st.receivedChunks) ∧
      ∃ j < hdr.r, hdr.numDataChunks + c / hdr.k * hdr.r + j ∈ st.receivedChunks) :
    e.files.get? hdr.outputPath = some ((List.range hdr.numData).map pay).flatten := by
  have hpr := hS.progress st hst
  have hnum : st.numData = hdr.numDataChunks := by
    rw [(hI.state st hst).numData_eq, ReceiveState.numData, if_neg (by omega)]
  -- every data chunk is there: it was received, or rebuilt from its block
  have hall : ∀ c < st.numData, (st.dataChunks.get? c).isSome := by
    intro c hc
    rw [hnum] at hc
    rcases hcover c hc with hc' | ⟨hfe, hothers, j, hj, hpj⟩
    · exact hpr.data c hc' hc
    obtain ⟨hk, hr⟩ := hkr hfe
    obtain ⟨p, ps, hps⟩ := hpr.parity _ hpj (by omega)
    have hblk : (hdr.numDataChunks + c / hdr.k * hdr.r + j - hdr.numDataChunks) / hdr.r =
        c / hdr.k := by
      rw [Nat.add_assoc, Nat.add_sub_cancel_left, Nat.add_comm, Nat.add_mul_div_right _ _ hr,
        Nat.div_eq_of_lt hj, Nat.zero_add]
    rw [hblk] at hps
    refine Bool.eq_true_of_not_eq_false fun hnone => hpr.repaired hfe (c / hdr.k) p ps c hps
      (eq_singleton_of_nodup ((List.nodup_range' _ _).filter _) ?_ fun x hx => ?_)
    · exact List.mem_filter.mpr ⟨(mem_blockIds hk).mpr ⟨hc, rfl⟩, by simpa using hnone⟩
    · obtain ⟨hx₁, hx₂⟩ := List.mem_filter.mp hx
      rw [mem_blockIds hk] at hx₁
      by_contra hxc
      have := hpr.data x (hothers x hx₁.1 hx₁.2 hxc) hx₁.1
      simp_all
  obtain ⟨out, hout⟩ := Option.isSome_iff_exists.mp (hS.written st hst (hS.delivered st hst hall))
  rw [hout, hI.file out hout]

/-- A fresh receiver fed only the faithful DATA messages of bundle `b`, its writes succeeding,
    holds `b` intact and settled, against the state the header makes and the data payloads. -/
theorem receive_settled (sendCfg : TransferConfig) (sendFec : FECConfig)
    (fileData : Bytes) (b : String) (fecEnabled : Bool) {chunks : List ChunkRecord}
    (hcs : 0 < sendCfg.chunkSize)
    (hcc : createChunks sendCfg sendFec fileData b (fecEnabled && sendFec.enabled) = some chunks)
    (hmade : (fecEnabled && sendFec.enabled && decide (sendFec.k > 0) &&
      decide (sendFec.r > 0)) = true →
        fec.enabled = true ∧ fileData.length % sendCfg.chunkSize = 0)
    (eng : ReceiveEngine) (hp : Paths outputDir eng) (hnew : eng.activeReceives.get? b = none)
    (hfile : eng.files.get? (outputPathFor outputDir b) = none) (as : List Arrival)
    (has : ∀ a ∈ as, a.msg.bundleId = b →
      (∃ ch ∈ chunks, a.msg = dataMsg chunks.length ch) ∧ a.writeOk = true) :
    let D := (fileData.length + sendCfg.chunkSize - 1) / sendCfg.chunkSize
    ∃ hdr pay, hdr.bundleId = b ∧ hdr.outputPath = outputPathFor outputDir b ∧
      hdr.numDataChunks = D ∧ ((List.range hdr.numData).map pay).flatten = fileData ∧
      (hdr.fecEnabled = true → 0 < hdr.k ∧ 0 < hdr.r) ∧
      ((fecEnabled && sendFec.enabled && decide (sendFec.k > 0) &&
        decide (sendFec.r > 0)) = true → 0 < D →
          hdr.fecEnabled = true ∧ hdr.k = sendFec.k ∧ hdr.r = sendFec.r) ∧
      Intact hdr pay (receive cfg fec nodeId outputDir eng as) ∧
      Settled hdr (receive cfg fec nodeId outputDir eng as) := by
  obtain ⟨hdr, k, r, w, pay, hhdr, hb, hpath, hnd, hflat, hkr, hfecOn, hw, hfaith⟩ :=
    exists_faithfulHeader cfg fec nodeId outputDir sendCfg sendFec fileData b fecEnabled hcs hcc hmade
  have hfa : ∀ a ∈ as, a.msg.bundleId = hdr.bundleId → Faithful hdr k r pay a.msg ∧ a.writeOk = true :=
    fun a ha hab => by
      obtain ⟨⟨ch, hch, he⟩, hok⟩ := has a ha (hab.trans hb)
      rw [he]; exact ⟨hfaith ch hch, hok⟩
  have hnone : ∀ st, eng.activeReceives.get? hdr.bundleId ≠ some st := fun st hst => by
    rw [hb, hnew] at hst; cases hst
  have hI : Intact hdr pay eng :=
    ⟨fun st hst => absurd hst (hnone st), fun out ho => by rw [hpath, hfile] at ho; cases ho⟩
  exact ⟨hdr, pay, hb, hpath, hnd, hflat, hkr, hfecOn,
    Intact.receive cfg fec nodeId outputDir hp hI hhdr hw as fun a ha hab => (hfa a ha hab).1,
    Settled.receive cfg fec nodeId outputDir hp hI ⟨fun st hst => absurd hst (hnone st),
      fun st hst => absurd hst (hnone st), fun st hst => absurd hst (hnone st)⟩ hhdr hw as hfa⟩

/-- A receiver settled on bundle `hdr` after a run writes the file once the arrivals cover the
    data, each data id arriving or, under FEC, being the one id of its block lost while the
    block's other data ids and one of its parity ids arrive. -/
theorem Settled.file_of_arrives {hdr : ReceiveState} {pay : Nat → Bytes} {eng : ReceiveEngine}
    {as : List Arrival}
    (hI : Intact hdr pay (ReceiveEngine.receive cfg fec nodeId outputDir eng as))
    (hS : Settled hdr (ReceiveEngine.receive cfg fec nodeId outputDir eng as))
    (hpos : 0 < hdr.numDataChunks)
    (hkr : hdr.fecEnabled = true → 0 < hdr.k ∧ 0 < hdr.r)
    (hcover : ∀ c < hdr.numDataChunks, Arrives as hdr.bundleId c ∨ hdr.fecEnabled = true ∧
      (∀ c' < hdr.numDataChunks, c' / hdr.k = c / hdr.k → c' ≠ c → Arrives as hdr.bundleId c') ∧
      ∃ j < hdr.r, Arrives as hdr.bundleId (hdr.numDataChunks + c / hdr.k * hdr.r + j)) :
    (ReceiveEngine.receive cfg fec nodeId outputDir eng as).files.get? hdr.outputPath =
      some ((List.range hdr.numData).map pay).flatten := by
  set e := ReceiveEngine.receive cfg fec nodeId outputDir eng as
  have hrecv : ∀ c, Arrives as hdr.bundleId c → ∃ st, e.activeReceives.get? hdr.bundleId = some st ∧
      c ∈ st.receivedChunks :=
    fun c hc => received_receive cfg fec nodeId outputDir eng as (Or.inr hc)
  -- the bundle has a state at the end, which received every id that arrived
  obtain ⟨st, hst⟩ : ∃ st, e.activeReceives.get? hdr.bundleId = some st := by
    rcases hcover 0 hpos with h0 | ⟨-, -, j, -, hj⟩
    · obtain ⟨st, hst, -⟩ := hrecv 0 h0; exact ⟨st, hst⟩
    · obtain ⟨st, hst, -⟩ := hrecv _ hj; exact ⟨st, hst⟩
  have hrc : ∀ c, Arrives as hdr.bundleId c → c ∈ st.receivedChunks := fun c hc => by
    obtain ⟨st', hst', hc'⟩ := hrecv c hc
    rw [hst] at hst'
    cases hst'; exact hc'
  refine hS.file_written hI hpos hkr hst fun c hc => ?_
  rcases hcover c hc with h | ⟨hfe, hothers, j, hj, hpj⟩
  · exact Or.inl (hrc c h)
  · exact Or.inr ⟨hfe, fun c' hc' hb' hne => hrc c' (hothers c' hc' hb' hne), j, hj, hrc _ hpj⟩

/-- Every write of the file succeeding, the receiver writes the file sent at `b`'s path once
    every data chunk has arrived or, under FEC, is the one data chunk of its block that is lost
    while the block's other data chunks and one of its parity chunks arrive — in any order,
    repeated, between other bundles' messages. -/
theorem receive_writes_sent_file (sendCfg : TransferConfig) (sendFec : FECConfig)
    (fileData : Bytes) (b : String) (fecEnabled : Bool) {chunks : List ChunkRecord}
    (hcs : 0 < sendCfg.chunkSize) (hC : fileData ≠ [])
    (hcc : createChunks sendCfg sendFec fileData b (fecEnabled && sendFec.enabled) = some chunks)
    (hmade : (fecEnabled && sendFec.enabled && decide (sendFec.k > 0) &&
      decide (sendFec.r > 0)) = true →
        fec.enabled = true ∧ fileData.length % sendCfg.chunkSize = 0)
    (eng : ReceiveEngine) (hp : Paths outputDir eng) (hnew : eng.activeReceives.get? b = none)
    (hfile : eng.files.get? (outputPathFor outputDir b) = none) (as : List Arrival)
    (has : ∀ a ∈ as, a.msg.bundleId = b →
      (∃ ch ∈ chunks, a.msg = dataMsg chunks.length ch) ∧ a.writeOk = true)
    (hcover : let D := (fileData.length + sendCfg.chunkSize - 1) / sendCfg.chunkSize
      ∀ c < D, Arrives as b c ∨
        (fecEnabled && sendFec.enabled && decide (sendFec.k > 0) &&
          decide (sendFec.r > 0)) = true ∧
        (∀ c' < D, c' / sendFec.k = c / sendFec.k → c' ≠ c → Arrives as b c') ∧
        ∃ j < sendFec.r, Arrives as b (D + c / sendFec.k * sendFec.r + j)) :
    (receive cfg fec nodeId outputDir eng as).files.get? (outputPathFor outputDir b) =
      some fileData := by
  obtain ⟨hdr, pay, hb, hpath, hnd, hflat, hkr, hfecOn, hI, hS⟩ := receive_settled cfg fec nodeId
    outputDir sendCfg sendFec fileData b fecEnabled hcs hcc hmade eng hp hnew hfile as has
  have hD : 0 < hdr.numDataChunks :=
    hnd ▸ Nat.div_pos (by have := List.length_pos.mpr hC; omega) hcs
  rw [← hflat, ← hpath]
  refine hS.file_of_arrives cfg fec nodeId outputDir hI hD hkr fun c hc => ?_
  rw [hb]
  rcases hcover c (hnd ▸ hc) with h | ⟨hm, hothers, j, hj, hpj⟩
  · exact Or.inl h
  · obtain ⟨hfe, hk, hr⟩ := hfecOn hm (hnd ▸ hD)
    refine Or.inr ⟨hfe, fun c' hc' hb' hne => hothers c' (hnd ▸ hc') (hk ▸ hb') hne, j, hr ▸ hj, ?_⟩
    rw [hnd, hk, hr]; exact hpj

/-- The 3-byte file in chunks of 1 byte under the default FEC at both ends (`k = 4`, `r = 2`):
    with data chunk 1 lost, the first parity chunk rebuilds it and the file is written. -/
theorem receive_writes_sent_file_lost_chunk :
    ∃ chunks, createChunks { chunkSize := 1 } {} [1, 2, 3] "b" true = some chunks ∧
      (receive {} {} "B" "received" {} ((chunks.eraseIdx 1).map fun ch =>
        ⟨dataMsg chunks.length ch, "A", true, 0⟩)).files.get? (outputPathFor "received" "b") =
        some [1, 2, 3] :=
  ⟨_, rfl, receive_writes_sent_file {} {} "B" "received" { chunkSize := 1 } {} [1, 2, 3] "b" true
    (by decide) (by decide) rfl (fun _ => ⟨rfl, rfl⟩) {} (paths_empty "received") rfl rfl _
    (fun a ha _ => by
      obtain ⟨ch, hch, rfl⟩ := List.mem_map.mp ha
      exact ⟨⟨ch, List.mem_of_mem_eraseIdx hch, rfl⟩, rfl⟩)
    (by decide)⟩

end ReceiveEngine

end Courier