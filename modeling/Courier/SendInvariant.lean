import Courier.SendEngine

/-
  Courier: what every `SendState` satisfies along every run of the send engine.

  `StateInv sacked st` is the window invariant: the acked set is `sacked`, the union of the
  SACK sets handled for this `SendState`; `window_start` is the first id of
  `[0, total_chunks)` not acked (`firstUnacked`); `window_end` is
  `min(window_start + window_size, total_chunks)`; no acked id has a timer. `sacked` is ghost
  state: `sackedStep` adds a SACK's set for its bundle and starts from `∅` when `send_file` or
  `resume_transfers` builds a new `SendState`.

  Every operation either keeps the window of each state (`KeepsWindow`: the sends, the timer
  checks, the retransmissions, the completions) or is `handle_sack`, whose `sackState` moves the
  window (`sackState_inv`), or builds fresh states. `stateInv_run` is the run lemma and
  `sendState_invariant` the statement over every run from a fresh engine.
-/

namespace Courier

/-- The first id of `[0, total)` not in `acked`, or `total` when every id is acked. -/
def firstUnacked (acked : Finset Nat) (total : Nat) : Nat :=
  Nat.find (⟨total, Or.inl le_rfl⟩ : ∃ n, total ≤ n ∨ n ∉ acked)

theorem firstUnacked_le (acked : Finset Nat) (total : Nat) : firstUnacked acked total ≤ total :=
  Nat.find_min' _ (Or.inl le_rfl)

theorem mem_of_lt_firstUnacked {acked : Finset Nat} {total c : Nat}
    (h : c < firstUnacked acked total) : c ∈ acked := by
  by_contra hc
  exact Nat.find_min _ h (Or.inr hc)

theorem firstUnacked_not_mem {acked : Finset Nat} {total : Nat}
    (h : firstUnacked acked total < total) : firstUnacked acked total ∉ acked :=
  (Nat.find_spec (⟨total, Or.inl le_rfl⟩ : ∃ n, total ≤ n ∨ n ∉ acked)).resolve_left (by
    unfold firstUnacked at h; omega)

theorem firstUnacked_le_of {acked : Finset Nat} {total c : Nat} (h : total ≤ c ∨ c ∉ acked) :
    firstUnacked acked total ≤ c :=
  Nat.find_min' _ h

@[simp] theorem firstUnacked_empty (total : Nat) : firstUnacked ∅ total = 0 :=
  Nat.le_zero.mp (firstUnacked_le_of (Or.inr (Finset.not_mem_empty 0)))

theorem firstUnacked_mono {acked acked' : Finset Nat} (h : acked ⊆ acked') (total : Nat) :
    firstUnacked acked total ≤ firstUnacked acked' total := by
  rcases Nat.lt_or_ge (firstUnacked acked' total) total with hlt | hge
  · exact firstUnacked_le_of (Or.inr fun hm => firstUnacked_not_mem hlt (h hm))
  · exact (firstUnacked_le acked total).trans hge

/-- The acked set and the window of a state. -/
def SendState.window (st : SendState) : Finset Nat × Nat × Nat :=
  (st.ackedChunks, st.windowStart, st.windowEnd)

/-- The acked set and window the invariant prescribes for the SACK union `s`. -/
def windowFor (s : Finset Nat) (total size : Nat) : Finset Nat × Nat × Nat :=
  (s, firstUnacked s total, min (firstUnacked s total + size) total)

namespace SendEngine

variable (cfg : TransferConfig)

/-- The loop of `handle_sack` run from a start below the first unacked id stops there. -/
theorem advanceWindowStart_eq {acked : Finset Nat} {total start : Nat}
    (h : start ≤ firstUnacked acked total) :
    advanceWindowStart acked total start = firstUnacked acked total := by
  suffices ∀ fuel ws, ws ≤ firstUnacked acked total → total - ws ≤ fuel →
      advanceWindowStart.loop acked total fuel ws = firstUnacked acked total from
    this _ _ h le_rfl
  intro fuel
  induction fuel with
  | zero =>
    intro ws hws hf
    have := firstUnacked_le acked total
    simp only [advanceWindowStart.loop]
    omega
  | succ fuel ih =>
    intro ws hws hf
    simp only [advanceWindowStart.loop]
    split
    · rename_i hc
      have hne : ws ≠ firstUnacked acked total := fun he =>
        firstUnacked_not_mem (he ▸ hc.1) (he ▸ hc.2)
      exact ih _ (by omega) (by omega)
    · rename_i hc
      have : firstUnacked acked total ≤ ws := firstUnacked_le_of (by
        by_cases ht : total ≤ ws
        · exact Or.inl ht
        · exact Or.inr fun hm => hc ⟨by omega, hm⟩)
      omega

theorem le_advanceWindowStart (acked : Finset Nat) (total start : Nat) :
    start ≤ advanceWindowStart acked total start := by
  suffices ∀ fuel ws, ws ≤ advanceWindowStart.loop acked total fuel ws from this _ _
  intro fuel
  induction fuel with
  | zero => intro ws; exact le_rfl
  | succ fuel ih =>
    intro ws
    simp only [advanceWindowStart.loop]
    split
    · exact (Nat.le_succ ws).trans (ih _)
    · exact le_rfl

/-! ## The window invariant -/

/-- The window invariant of one `SendState`, `sacked` the union of the SACK sets handled for
    it. -/
structure StateInv (sacked : Finset Nat) (st : SendState) : Prop where
  acked_eq : st.ackedChunks = sacked
  windowStart_eq : st.windowStart = firstUnacked st.ackedChunks st.totalChunks
  windowEnd_eq : st.windowEnd = min (st.windowStart + st.windowSize) st.totalChunks
  no_timer : ∀ c ∈ st.ackedChunks, st.chunkTimers.get? c = none

/-- A change of a `SendState` that leaves its window alone and arms no timer of an acked id. -/
structure KeepsWindow (st st' : SendState) : Prop where
  acked : st'.ackedChunks = st.ackedChunks
  windowStart : st'.windowStart = st.windowStart
  windowEnd : st'.windowEnd = st.windowEnd
  windowSize : st'.windowSize = st.windowSize
  totalChunks : st'.totalChunks = st.totalChunks
  timers : ∀ c ∈ st.ackedChunks, st.chunkTimers.get? c = none → st'.chunkTimers.get? c = none

theorem KeepsWindow.refl (st : SendState) : KeepsWindow st st :=
  ⟨rfl, rfl, rfl, rfl, rfl, fun _ _ h => h⟩

theorem KeepsWindow.trans {st₁ st₂ st₃ : SendState} (h₁ : KeepsWindow st₁ st₂)
    (h₂ : KeepsWindow st₂ st₃) : KeepsWindow st₁ st₃ :=
  ⟨h₂.acked.trans h₁.acked, h₂.windowStart.trans h₁.windowStart,
    h₂.windowEnd.trans h₁.windowEnd, h₂.windowSize.trans h₁.windowSize,
    h₂.totalChunks.trans h₁.totalChunks,
    fun c hc h => h₂.timers c (h₁.acked ▸ hc) (h₁.timers c hc h)⟩

theorem StateInv.keeps {sacked : Finset Nat} {st st' : SendState} (h : StateInv sacked st)
    (hk : KeepsWindow st st') : StateInv sacked st' where
  acked_eq := hk.acked.trans h.acked_eq
  windowStart_eq := by rw [hk.windowStart, hk.acked, hk.totalChunks]; exact h.windowStart_eq
  windowEnd_eq := by
    rw [hk.windowEnd, hk.windowStart, hk.windowSize, hk.totalChunks]; exact h.windowEnd_eq
  no_timer c hc := hk.timers c (hk.acked ▸ hc) (h.no_timer c (hk.acked ▸ hc))

/-- Arming the timer of an unacked id keeps the window. -/
theorem keepsWindow_arm {st st' : SendState} {c : Nat} {t : ℚ} (hc : c ∉ st.ackedChunks)
    (hacked : st'.ackedChunks = st.ackedChunks) (hstart : st'.windowStart = st.windowStart)
    (hend : st'.windowEnd = st.windowEnd) (hsize : st'.windowSize = st.windowSize)
    (htotal : st'.totalChunks = st.totalChunks)
    (htimers : st'.chunkTimers = st.chunkTimers.insert c t) : KeepsWindow st st' :=
  ⟨hacked, hstart, hend, hsize, htotal, fun d hd h => by
    rw [htimers, Dict.get?_insert, if_neg (fun (he : d = c) => hc (he ▸ hd)), h]⟩

theorem sendWindowLoop_keeps (chunks : Dict Nat ChunkRecord) (now : ℚ) (ok : Nat → Bool)
    (cs : List Nat) (n : Nat) (st : SendState) :
    KeepsWindow st (sendWindowLoop chunks now ok cs n st).1 := by
  induction cs generalizing n st with
  | nil => exact KeepsWindow.refl st
  | cons c cs ih =>
    unfold sendWindowLoop
    split
    · exact ih n st
    · split
      · exact ih n st
      · split
        · exact ih n st
        · split
          · refine KeepsWindow.trans ?_ (ih (n + 1) _)
            exact keepsWindow_arm ‹_› rfl rfl rfl rfl rfl rfl
          · exact ih _ st

theorem retransmitLoop_keeps (chunks : Dict Nat ChunkRecord) (now : ℚ) (ok : Nat → Bool)
    (cs : List Nat) (n : Nat) (st : SendState) :
    KeepsWindow st (retransmitLoop chunks now ok cs n st).1 := by
  induction cs generalizing n st with
  | nil => exact KeepsWindow.refl st
  | cons c cs ih =>
    unfold retransmitLoop
    split
    · exact ih n st
    · split
      · exact ih n st
      · split
        · refine KeepsWindow.trans ?_ (ih (n + 1) _)
          exact keepsWindow_arm ‹_› rfl rfl rfl rfl rfl rfl
        · exact ih _ st

theorem checkStateTimeouts_keeps (now : ℚ) (st : SendState) :
    KeepsWindow st (checkStateTimeouts cfg now st) := by
  unfold checkStateTimeouts
  split
  · exact KeepsWindow.refl st
  · dsimp only
    split <;> exact ⟨rfl, rfl, rfl, rfl, rfl, fun c _ h => by simp [h]⟩

theorem keepsWindow_complete (st : SendState) : KeepsWindow st { st with completed := true } :=
  ⟨rfl, rfl, rfl, rfl, rfl, fun _ _ h => h⟩

/-! ## Taking in a SACK -/

section Ack

variable (now : ℚ) (st : SendState) (c : Nat)

@[simp] theorem updateRttEstimates_ackedChunks (rtt : ℚ) :
    (updateRttEstimates cfg st rtt).ackedChunks = st.ackedChunks := by
  unfold updateRttEstimates; split <;> rfl

@[simp] theorem updateRttEstimates_chunkTimers (rtt : ℚ) :
    (updateRttEstimates cfg st rtt).chunkTimers = st.chunkTimers := by
  unfold updateRttEstimates; split <;> rfl

@[simp] theorem updateRttEstimates_windowStart (rtt : ℚ) :
    (updateRttEstimates cfg st rtt).windowStart = st.windowStart := by
  unfold updateRttEstimates; split <;> rfl

@[simp] theorem updateRttEstimates_windowSize (rtt : ℚ) :
    (updateRttEstimates cfg st rtt).windowSize = st.windowSize := by
  unfold updateRttEstimates; split <;> rfl

@[simp] theorem updateRttEstimates_totalChunks (rtt : ℚ) :
    (updateRttEstimates cfg st rtt).totalChunks = st.totalChunks := by
  unfold updateRttEstimates; split <;> rfl

@[simp] theorem updateRttEstimates_sendTimestamps (rtt : ℚ) :
    (updateRttEstimates cfg st rtt).sendTimestamps = st.sendTimestamps := by
  unfold updateRttEstimates; split <;> rfl

@[simp] theorem updateRttEstimates_retransmittedChunks (rtt : ℚ) :
    (updateRttEstimates cfg st rtt).retransmittedChunks = st.retransmittedChunks := by
  unfold updateRttEstimates; split <;> rfl

/-- What `ackChunk` leaves alone: the acked set, the window fields and the other timers. -/
theorem ackChunk_frame :
    (ackChunk cfg now st c).ackedChunks = st.ackedChunks ∧
      (ackChunk cfg now st c).windowStart = st.windowStart ∧
      (ackChunk cfg now st c).windowSize = st.windowSize ∧
      (ackChunk cfg now st c).totalChunks = st.totalChunks ∧
      (ackChunk cfg now st c).chunkTimers = st.chunkTimers.erase c := by
  unfold ackChunk
  split
  · split <;> simp
  · simp

end Ack

theorem foldl_ackChunk_frame (now : ℚ) (l : List Nat) (st : SendState) :
    (l.foldl (ackChunk cfg now) st).ackedChunks = st.ackedChunks ∧
      (l.foldl (ackChunk cfg now) st).windowStart = st.windowStart ∧
      (l.foldl (ackChunk cfg now) st).windowSize = st.windowSize ∧
      (l.foldl (ackChunk cfg now) st).totalChunks = st.totalChunks ∧
      ∀ d, (l.foldl (ackChunk cfg now) st).chunkTimers.get? d =
        if d ∈ l then none else st.chunkTimers.get? d := by
  induction l generalizing st with
  | nil => simp
  | cons c cs ih =>
    obtain ⟨h1, h2, h3, h4, h5⟩ := ackChunk_frame cfg now st c
    obtain ⟨i1, i2, i3, i4, i5⟩ := ih (ackChunk cfg now st c)
    refine ⟨i1.trans h1, i2.trans h2, i3.trans h3, i4.trans h4, fun d => ?_⟩
    rw [List.foldl_cons, i5, h5, Dict.get?_erase]
    by_cases hd : d = c <;> by_cases hm : d ∈ cs <;> simp [hd, hm]

/-- What `sackState` does to the window: the acked set grows by the SACK's set, the window
    start runs the loop from where it was, and only the newly acked ids lose their timers. -/
theorem sackState_spec (now : ℚ) (st : SendState) (acked : Finset Nat) :
    (sackState cfg now st acked).ackedChunks = st.ackedChunks ∪ acked ∧
      (sackState cfg now st acked).totalChunks = st.totalChunks ∧
      (sackState cfg now st acked).windowSize = st.windowSize ∧
      (sackState cfg now st acked).windowStart =
        advanceWindowStart (st.ackedChunks ∪ acked) st.totalChunks st.windowStart ∧
      (sackState cfg now st acked).windowEnd =
        min ((sackState cfg now st acked).windowStart + st.windowSize) st.totalChunks ∧
      ∀ d, (sackState cfg now st acked).chunkTimers.get? d =
        if d ∈ acked \ st.ackedChunks then none else st.chunkTimers.get? d := by
  obtain ⟨f1, f2, f3, f4, f5⟩ := foldl_ackChunk_frame cfg now
    (sortedIds (acked \ st.ackedChunks)) { st with ackedChunks := st.ackedChunks ∪ acked }
  simp only [mem_sortedIds] at f5
  unfold sackState
  dsimp only
  split <;> simp [f1, f2, f3, f4, f5]

/-- `handle_sack` takes the SACK's set into the acked set and moves the window to the first
    unacked id; the invariant follows the union. -/
theorem sackState_inv (now : ℚ) {sacked : Finset Nat} {st : SendState}
    (h : StateInv sacked st) (acked : Finset Nat) :
    StateInv (sacked ∪ acked) (sackState cfg now st acked) := by
  obtain ⟨s1, s2, s3, s4, s5, s6⟩ := sackState_spec cfg now st acked
  have hstart : st.windowStart ≤ firstUnacked (st.ackedChunks ∪ acked) st.totalChunks :=
    h.windowStart_eq ▸ firstUnacked_mono Finset.subset_union_left _
  refine ⟨by rw [s1, h.acked_eq], by simp only [s1, s2, s4]; exact advanceWindowStart_eq hstart,
    by simp only [s5, s3, s2], fun c hc => ?_⟩
  rw [s6]
  rw [s1] at hc
  by_cases hold : c ∈ st.ackedChunks
  · simp [hold, h.no_timer c hold]
  · simp [hold, (Finset.mem_union.mp hc).resolve_left hold]

/-! ## Operations that keep every window -/

/-- An engine change that keeps the window of every state and builds none. -/
def Tames (eng eng' : SendEngine) : Prop :=
  ∀ b st', eng'.activeSends.get? b = some st' →
    ∃ st, eng.activeSends.get? b = some st ∧ KeepsWindow st st'

theorem Tames.refl (eng : SendEngine) : Tames eng eng :=
  fun _ st h => ⟨st, h, KeepsWindow.refl st⟩

theorem Tames.trans {e₁ e₂ e₃ : SendEngine} (h₁ : Tames e₁ e₂) (h₂ : Tames e₂ e₃) :
    Tames e₁ e₃ := fun b st₃ h => by
  obtain ⟨st₂, h₂', k₂⟩ := h₂ b st₃ h
  obtain ⟨st₁, h₁', k₁⟩ := h₁ b st₂ h₂'
  exact ⟨st₁, h₁', k₁.trans k₂⟩

theorem tames_insert {eng eng' : SendEngine} {b : String} {st st' : SendState}
    (hget : eng.activeSends.get? b = some st) (hk : KeepsWindow st st')
    (h : eng'.activeSends = eng.activeSends.insert b st') : Tames eng eng' := fun x sx hx => by
  rw [h, Dict.get?_insert] at hx
  split at hx
  · subst x; cases hx; exact ⟨st, hget, hk⟩
  · exact ⟨sx, hx, KeepsWindow.refl sx⟩

theorem sendWindow_tames (eng : SendEngine) (b : String) (now : ℚ) (ok : Nat → Bool) :
    Tames eng (sendWindow eng b now ok).1 := by
  unfold sendWindow
  split
  · exact Tames.refl eng
  · rename_i st hget
    exact tames_insert hget (sendWindowLoop_keeps _ _ _ _ _ st) rfl

theorem completeTransfer_tames (eng : SendEngine) (b : String) :
    Tames eng (completeTransfer eng b) := by
  unfold completeTransfer
  split
  · exact Tames.refl eng
  · rename_i st hget
    split
    · exact Tames.refl eng
    · exact tames_insert hget (keepsWindow_complete st) rfl

theorem handleDelivered_tames (eng : SendEngine) (b : String) :
    Tames eng (handleDelivered eng b) := by
  unfold handleDelivered
  split
  · exact completeTransfer_tames eng b
  · exact Tames.refl eng

theorem checkTimeouts_tames (eng : SendEngine) (now : ℚ) :
    Tames eng (checkTimeouts cfg eng now) := fun b st' h => by
  simp only [checkTimeouts, Dict.get?_mapVal, Option.map_eq_some'] at h
  obtain ⟨st, hget, rfl⟩ := h
  exact ⟨st, hget, checkStateTimeouts_keeps cfg now st⟩

theorem retransmitChunks_tames (eng : SendEngine) (b : String) (now : ℚ) (ok : Nat → Bool) :
    Tames eng (retransmitChunks eng b now ok).1 := by
  unfold retransmitChunks
  split
  · exact Tames.refl eng
  · rename_i st hget
    split
    · exact Tames.refl eng
    · exact tames_insert hget ((⟨rfl, rfl, rfl, rfl, rfl, fun _ _ h => h⟩ :
        KeepsWindow st { st with retransmitQueue := [] }).trans
        (retransmitLoop_keeps _ _ _ _ _ _)) rfl

theorem cleanupCompletedTransfers_tames (eng : SendEngine) :
    Tames eng (cleanupCompletedTransfers eng) := fun b st' h => by
  simp only [cleanupCompletedTransfers, Dict.get?_filter, Option.filter_eq_some] at h
  exact ⟨st', h.1, KeepsWindow.refl st'⟩

/-! ## The invariant along runs -/

/-- Every `SendState` the engine holds satisfies the window invariant, `sacked b` the union of
    the SACK sets handled for the state of bundle `b`. -/
def EngineInv (sacked : String → Finset Nat) (eng : SendEngine) : Prop :=
  ∀ b st, eng.activeSends.get? b = some st → StateInv (sacked b) st

theorem EngineInv.tames {g : String → Finset Nat} {eng eng' : SendEngine} (h : EngineInv g eng)
    (ht : Tames eng eng') : EngineInv g eng' := fun b st' hb => by
  obtain ⟨st, hst, hk⟩ := ht b st' hb
  exact (h b st hst).keeps hk

theorem EngineInv.insert {g : String → Finset Nat} {eng eng' : SendEngine} (h : EngineInv g eng)
    {b : String} {u : Finset Nat} {st : SendState} (hst : StateInv u st)
    (heng : eng'.activeSends = eng.activeSends.insert b st) :
    EngineInv (Function.update g b u) eng' := fun x sx hx => by
  rw [heng, Dict.get?_insert] at hx
  split at hx
  · subst x; cases hx; rwa [Function.update_same]
  · rw [Function.update_noteq ‹_›]; exact h x sx hx

/-- A state `send_file` or `resume_transfers` builds: nothing acked, the window at `0`, no
    timer. -/
theorem stateInv_fresh {st : SendState} (h1 : st.ackedChunks = ∅) (h2 : st.windowStart = 0)
    (h3 : st.windowEnd = min st.windowSize st.totalChunks) (h4 : st.chunkTimers = ∅) :
    StateInv ∅ st :=
  ⟨h1, by rw [h2, h1, firstUnacked_empty], by rw [h3, h2, Nat.zero_add], by simp [h4]⟩

theorem handleSack_inv {g : String → Finset Nat} {eng : SendEngine} (h : EngineInv g eng)
    (b : String) (acked : Finset Nat) (now nowSend : ℚ) (ok : Nat → Bool) :
    EngineInv (if (eng.activeSends.get? b).isSome then Function.update g b (g b ∪ acked) else g)
      (handleSack cfg eng b acked now nowSend ok).1 := by
  unfold handleSack
  cases hget : eng.activeSends.get? b with
  | none => simpa using h
  | some st =>
    rw [Option.isSome_some, if_pos rfl]
    have h1 : EngineInv (Function.update g b (g b ∪ acked))
        { eng with activeSends := eng.activeSends.insert b (sackState cfg now st acked) } :=
      h.insert (sackState_inv cfg now (h b st hget) acked) rfl
    dsimp only
    split
    · exact h1.tames (completeTransfer_tames _ b)
    · split
      · exact h1.tames (sendWindow_tames _ b nowSend ok)
      · exact h1

/-- `send_file` where `_create_chunks` succeeds: the bundle row, saved as `sending`, and the
    chunks stored, a fresh state and the chunk cache entered, then `_send_window`. -/
theorem sendFile_eq_some {fec : FECConfig} {srcNodeId : String} {eng : SendEngine}
    {filePath destination bundleId : String} {fileData : Bytes} {fecEnabled : Bool} {now : ℚ}
    {ok : Nat → Bool} {r : SendEngine × List Message}
    (hr : sendFile cfg fec srcNodeId eng filePath fileData destination fecEnabled bundleId now ok =
      some r) :
    ∃ chunks row, createChunks cfg fec fileData bundleId (fecEnabled && fec.enabled) = some chunks ∧
      row.state = "sending" ∧
      r = sendWindow
        { activeSends := eng.activeSends.insert bundleId
            { bundleId, windowSize := cfg.windowSize, timeoutInterval := cfg.baseRtoMs,
              totalChunks := chunks.length, windowEnd := min cfg.windowSize chunks.length }
          chunkCache := eng.chunkCache.insert bundleId (chunkDict chunks)
          store := chunks.foldl Store.saveChunk (eng.store.saveBundle bundleId row) }
        bundleId now ok := by
  unfold sendFile at hr
  cases hc : createChunks cfg fec fileData bundleId (fecEnabled && fec.enabled) with
  | none => simp [hc] at hr
  | some chunks =>
    simp only [hc, Option.bind_eq_bind, Option.some_bind, Option.pure_def, Option.some.injEq] at hr
    exact ⟨chunks, _, rfl, rfl, hr.symm⟩

theorem sendFile_inv (fec : FECConfig) (srcNodeId : String) {g : String → Finset Nat}
    {eng : SendEngine} (h : EngineInv g eng) {filePath destination bundleId : String}
    {fileData : Bytes} {fecEnabled : Bool} {now : ℚ} {ok : Nat → Bool}
    {r : SendEngine × List Message}
    (hr : sendFile cfg fec srcNodeId eng filePath fileData destination fecEnabled bundleId now ok =
      some r) :
    EngineInv (Function.update g bundleId ∅) r.1 := by
  obtain ⟨chunks, row, -, -, rfl⟩ := sendFile_eq_some cfg hr
  exact (h.insert (stateInv_fresh rfl rfl rfl rfl) rfl).tames (sendWindow_tames _ _ _ _)

/-- After `resume_transfers` a bundle's state is either one it rebuilt from a `sending` row, or
    the one it had. -/
theorem get?_resumeTransfers (eng : SendEngine) (b : String) (st : SendState)
    (h : (resumeTransfers cfg eng).activeSends.get? b = some st) :
    (b ∈ (eng.store.listBundlesByState "sending").map Prod.fst ∧ StateInv ∅ st) ∨
      (b ∉ (eng.store.listBundlesByState "sending").map Prod.fst ∧
        eng.activeSends.get? b = some st) := by
  unfold resumeTransfers at h
  generalize eng.store.listBundlesByState "sending" = rows at h ⊢
  generalize eng.activeSends = sends at h ⊢
  induction rows generalizing sends with
  | nil => exact Or.inr ⟨List.not_mem_nil _, h⟩
  | cons e rows ih =>
    rcases ih _ h with ⟨hm, hinv⟩ | ⟨hm, hget⟩
    · exact Or.inl ⟨List.mem_cons_of_mem _ hm, hinv⟩
    · rw [Dict.get?_insert] at hget
      split at hget
      · cases hget
        exact Or.inl ⟨by simp [*], stateInv_fresh rfl rfl rfl rfl⟩
      · exact Or.inr ⟨by simp [*], hget⟩

theorem resumeTransfers_inv {g : String → Finset Nat} {eng : SendEngine} (h : EngineInv g eng) :
    EngineInv (fun b => if b ∈ (eng.store.listBundlesByState "sending").map Prod.fst then ∅
      else g b) (resumeTransfers cfg eng) := fun b st hb => by
  rcases get?_resumeTransfers cfg eng b st hb with ⟨hm, hinv⟩ | ⟨hm, hget⟩
  · simpa [hm] using hinv
  · simpa [hm] using h b st hget

/-! ## Runs -/

variable (fec : FECConfig) (srcNodeId : String)

/-- The ghost update: a handled SACK's set joins its bundle's union, and a state `send_file` or
    `resume_transfers` builds starts from `∅`. -/
def sackedStep (g : String → Finset Nat) (eng : SendEngine) : SendOp → String → Finset Nat
  | .sendFile filePath fileData destination fecEnabled bundleId now ok =>
    if (sendFile cfg fec srcNodeId eng filePath fileData destination fecEnabled bundleId now
      ok).isSome then Function.update g bundleId ∅ else g
  | .handleSack bundleId acked _ _ _ =>
    if (eng.activeSends.get? bundleId).isSome then Function.update g bundleId (g bundleId ∪ acked)
    else g
  | .resumeTransfers => fun b =>
    if b ∈ (eng.store.listBundlesByState "sending").map Prod.fst then ∅ else g b
  | _ => g

/-- The ghost along a run. -/
def sackedRun (g : String → Finset Nat) (eng : SendEngine) : List SendOp → String → Finset Nat
  | [] => g
  | op :: ops => sackedRun (sackedStep cfg fec srcNodeId g eng op)
      (step cfg fec srcNodeId eng op).1 ops

/-- The step lemma: every operation keeps the invariant, the ghost moving with it. -/
theorem engineInv_step {g : String → Finset Nat} {eng : SendEngine} (h : EngineInv g eng)
    (op : SendOp) :
    EngineInv (sackedStep cfg fec srcNodeId g eng op) (step cfg fec srcNodeId eng op).1 := by
  cases op with
  | sendFile filePath fileData destination fecEnabled bundleId now ok =>
    simp only [sackedStep, step]
    cases hr : sendFile cfg fec srcNodeId eng filePath fileData destination fecEnabled bundleId
      now ok with
    | none => simpa using h
    | some r => simpa using sendFile_inv cfg fec srcNodeId h hr
  | handleSack bundleId acked now nowSend ok => exact handleSack_inv cfg h _ _ _ _ _
  | handleDelivered bundleId => exact h.tames (handleDelivered_tames _ _)
  | checkTimeouts now => exact h.tames (checkTimeouts_tames cfg _ _)
  | retransmitChunks bundleId now ok => exact h.tames (retransmitChunks_tames _ _ _ _)
  | resumeTransfers => exact resumeTransfers_inv cfg h
  | cleanupCompletedTransfers => exact h.tames (cleanupCompletedTransfers_tames _)

/-- The run lemma. -/
theorem engineInv_run (ops : List SendOp) {g : String → Finset Nat} {eng : SendEngine}
    (h : EngineInv g eng) :
    EngineInv (sackedRun cfg fec srcNodeId g eng ops) (run cfg fec srcNodeId eng ops) := by
  induction ops generalizing g eng with
  | nil => exact h
  | cons op ops ih => exact ih (engineInv_step cfg fec srcNodeId h op)

/-! ## Monotonicity -/

/-- The acked set and both window ends only grow. -/
structure Grows (st st' : SendState) : Prop where
  acked : st.ackedChunks ⊆ st'.ackedChunks
  windowStart : st.windowStart ≤ st'.windowStart
  windowEnd : st.windowEnd ≤ st'.windowEnd

theorem KeepsWindow.grows {st st' : SendState} (h : KeepsWindow st st') : Grows st st' :=
  ⟨h.acked ▸ Finset.Subset.refl _, h.windowStart.symm.le, h.windowEnd.symm.le⟩

theorem Grows.trans_keeps {st₁ st₂ st₃ : SendState} (h₁ : Grows st₁ st₂)
    (h₂ : KeepsWindow st₂ st₃) : Grows st₁ st₃ :=
  ⟨h₂.acked ▸ h₁.acked, h₂.windowStart ▸ h₁.windowStart, h₂.windowEnd ▸ h₁.windowEnd⟩

/-- The bundles whose `SendState` an operation builds afresh. -/
def SendOp.builds (eng : SendEngine) (b : String) : SendOp → Prop
  | .sendFile filePath fileData destination fecEnabled bundleId now ok =>
    bundleId = b ∧ (SendEngine.sendFile cfg fec srcNodeId eng filePath fileData destination fecEnabled
      bundleId now ok).isSome
  | .resumeTransfers => b ∈ (eng.store.listBundlesByState "sending").map Prod.fst
  | _ => False

theorem grows_of_tames {eng eng' : SendEngine} (ht : Tames eng eng') {b : String}
    {st st' : SendState} (h1 : eng.activeSends.get? b = some st)
    (h2 : eng'.activeSends.get? b = some st') : Grows st st' := by
  obtain ⟨st₀, h₀, hk⟩ := ht b st' h2
  rw [h1, Option.some.injEq] at h₀
  exact h₀ ▸ hk.grows

/-! ## What `handle_sack` does to one state -/

theorem get?_sendWindow_ne (eng : SendEngine) {x y : String} (hy : y ≠ x) (now : ℚ)
    (ok : Nat → Bool) : (sendWindow eng x now ok).1.activeSends.get? y = eng.activeSends.get? y := by
  unfold sendWindow
  split
  · rfl
  · simp [Dict.get?_insert, hy]

theorem get?_completeTransfer (eng : SendEngine) (x y : String) :
    (completeTransfer eng x).activeSends.get? y =
      if y = x then (eng.activeSends.get? x).map fun st => { st with completed := true }
      else eng.activeSends.get? y := by
  unfold completeTransfer
  split
  · rename_i hget; split <;> simp_all
  · rename_i st hget
    split
    · rename_i hc
      split
      · subst y; rw [hget]; cases st; simp_all
      · rfl
    · simp [Dict.get?_insert, hget]

theorem sendWindow_get? {eng : SendEngine} {b : String} {st : SendState}
    (hget : eng.activeSends.get? b = some st) (now : ℚ) (ok : Nat → Bool) :
    ∃ st', (sendWindow eng b now ok).1.activeSends.get? b = some st' ∧ KeepsWindow st st' := by
  refine ⟨_, ?_, sendWindowLoop_keeps (eng.windowChunks b).2 now ok
    (List.range' st.windowStart (st.windowEnd - st.windowStart)) 0 st⟩
  simp [sendWindow, hget]

theorem completeTransfer_get? {eng : SendEngine} {b : String} {st : SendState}
    (hget : eng.activeSends.get? b = some st) :
    ∃ st', (completeTransfer eng b).activeSends.get? b = some st' ∧ KeepsWindow st st' := by
  simp only [completeTransfer, hget]
  split
  · exact ⟨st, hget, KeepsWindow.refl st⟩
  · exact ⟨_, by simp, keepsWindow_complete st⟩

/-- `handle_sack` on a bundle with a state leaves it a state that holds the invariant for the
    grown union, with the same size and length. -/
theorem handleSack_get? {eng : SendEngine} {b : String} {s : Finset Nat} {st : SendState}
    (hget : eng.activeSends.get? b = some st) (h : StateInv s st) (acked : Finset Nat)
    (now nowSend : ℚ) (ok : Nat → Bool) :
    ∃ st', (handleSack cfg eng b acked now nowSend ok).1.activeSends.get? b = some st' ∧
      StateInv (s ∪ acked) st' ∧ st'.totalChunks = st.totalChunks ∧
      st'.windowSize = st.windowSize := by
  obtain ⟨-, s2, s3, -⟩ := sackState_spec cfg now st acked
  have hins : ({ eng with activeSends := eng.activeSends.insert b (sackState cfg now st acked) } :
      SendEngine).activeSends.get? b = some (sackState cfg now st acked) := by simp
  suffices ∃ st', (handleSack cfg eng b acked now nowSend ok).1.activeSends.get? b = some st' ∧
      KeepsWindow (sackState cfg now st acked) st' by
    obtain ⟨st', h1, hk⟩ := this
    exact ⟨st', h1, (sackState_inv cfg now h acked).keeps hk, hk.totalChunks.trans s2,
      hk.windowSize.trans s3⟩
  unfold handleSack
  rw [hget]
  dsimp only
  split
  · exact completeTransfer_get? hins
  · split
    · exact sendWindow_get? hins nowSend ok
    · exact ⟨_, hins, KeepsWindow.refl _⟩

theorem handleSack_of_get?_eq_none {eng : SendEngine} {b : String}
    (hget : eng.activeSends.get? b = none) (acked : Finset Nat) (now nowSend : ℚ)
    (ok : Nat → Bool) : (handleSack cfg eng b acked now nowSend ok).1 = eng := by
  simp [handleSack, hget]

theorem get?_handleSack_ne (eng : SendEngine) {x y : String} (hy : y ≠ x) (acked : Finset Nat)
    (now nowSend : ℚ) (ok : Nat → Bool) :
    (handleSack cfg eng x acked now nowSend ok).1.activeSends.get? y = eng.activeSends.get? y := by
  unfold handleSack
  split
  · rfl
  · dsimp only
    split
    · simp [get?_completeTransfer, hy, Dict.get?_insert]
    · split
      · rw [get?_sendWindow_ne _ hy]; simp [Dict.get?_insert, hy]
      · simp [Dict.get?_insert, hy]

theorem StateInv.grows {s s' : Finset Nat} {st st' : SendState} (h : StateInv s st)
    (h' : StateInv s' st') (hs : s ⊆ s') (ht : st'.totalChunks = st.totalChunks)
    (hw : st'.windowSize = st.windowSize) : Grows st st' := by
  have hws : st.windowStart ≤ st'.windowStart := by
    rw [h.windowStart_eq, h'.windowStart_eq, ht, h.acked_eq, h'.acked_eq]
    exact firstUnacked_mono hs _
  exact ⟨by rw [h.acked_eq, h'.acked_eq]; exact hs, hws,
    by rw [h.windowEnd_eq, h'.windowEnd_eq, ht, hw]; omega⟩

/-- Every operation that does not build `b`'s state afresh only grows it. -/
theorem step_grows {g : String → Finset Nat} {eng : SendEngine} (h : EngineInv g eng)
    (op : SendOp) {b : String} (hb : ¬ op.builds cfg fec srcNodeId eng b) {st st' : SendState}
    (h1 : eng.activeSends.get? b = some st)
    (h2 : (step cfg fec srcNodeId eng op).1.activeSends.get? b = some st') : Grows st st' := by
  cases op with
  | sendFile filePath fileData destination fecEnabled bundleId now ok =>
    simp only [step] at h2
    cases hr : sendFile cfg fec srcNodeId eng filePath fileData destination fecEnabled bundleId
      now ok with
    | none => rw [hr] at h2; exact grows_of_tames (Tames.refl eng) h1 h2
    | some r =>
      have hne : bundleId ≠ b := fun he => hb ⟨he, by rw [hr]; rfl⟩
      rw [hr] at h2
      obtain ⟨chunks, row, -, -, rfl⟩ := sendFile_eq_some cfg hr
      refine grows_of_tames (sendWindow_tames _ _ _ _) ?_ h2
      rw [Dict.get?_insert, if_neg (Ne.symm hne), h1]
  | handleSack bundleId acked now nowSend ok =>
    simp only [step] at h2
    by_cases hbb : b = bundleId
    · subst hbb
      obtain ⟨st₂, h₂, i₂, t₂, w₂⟩ := handleSack_get? cfg h1 (h b st h1) acked now nowSend ok
      rw [h₂, Option.some.injEq] at h2
      subst h2
      exact (h b st h1).grows i₂ Finset.subset_union_left t₂ w₂
    · rw [get?_handleSack_ne cfg _ hbb] at h2
      exact grows_of_tames (Tames.refl eng) h1 h2
  | handleDelivered bundleId => exact grows_of_tames (handleDelivered_tames _ _) h1 h2
  | checkTimeouts now => exact grows_of_tames (checkTimeouts_tames cfg _ _) h1 h2
  | retransmitChunks bundleId now ok =>
    exact grows_of_tames (retransmitChunks_tames _ _ _ _) h1 h2
  | resumeTransfers =>
    rcases get?_resumeTransfers cfg eng b st' h2 with ⟨hm, -⟩ | ⟨-, hget⟩
    · exact absurd hm hb
    · exact grows_of_tames (Tames.refl eng) h1 hget
  | cleanupCompletedTransfers =>
    exact grows_of_tames (cleanupCompletedTransfers_tames _) h1 h2

/-! ## The window is a function of the SACK union -/

theorem StateInv.window_eq {s : Finset Nat} {st : SendState} (h : StateInv s st) :
    st.window = windowFor s st.totalChunks st.windowSize := by
  simp only [SendState.window, windowFor, h.windowEnd_eq, h.windowStart_eq, h.acked_eq]

section TwoSacks

variable {g : String → Finset Nat} {eng : SendEngine} (h : EngineInv g eng) (b : String)
  (acked acked' : Finset Nat) (now₁ nowSend₁ now₂ nowSend₂ : ℚ) (ok₁ ok₂ : Nat → Bool)
include h

/-- Two SACKs for `b` leave it the window of the union of their sets. -/
theorem window_handleSack_handleSack :
    ((handleSack cfg (handleSack cfg eng b acked now₁ nowSend₁ ok₁).1 b acked' now₂ nowSend₂
      ok₂).1.activeSends.get? b).map SendState.window =
    (eng.activeSends.get? b).map fun st =>
      windowFor (g b ∪ acked ∪ acked') st.totalChunks st.windowSize := by
  cases hget : eng.activeSends.get? b with
  | none => simp only [handleSack_of_get?_eq_none, hget, Option.map_none']
  | some st =>
    obtain ⟨st₁, h₁, i₁, t₁, w₁⟩ := handleSack_get? cfg hget (h b st hget) acked now₁ nowSend₁ ok₁
    obtain ⟨st₂, h₂, i₂, t₂, w₂⟩ := handleSack_get? cfg h₁ i₁ acked' now₂ nowSend₂ ok₂
    rw [h₂, Option.map_some', Option.map_some', i₂.window_eq, t₂, w₂, t₁, w₁]

/-- Handling two SACKs in either order yields the same acked set and window. -/
theorem handleSack_comm_window :
    ((handleSack cfg (handleSack cfg eng b acked now₁ nowSend₁ ok₁).1 b acked' now₂ nowSend₂
      ok₂).1.activeSends.get? b).map SendState.window =
    ((handleSack cfg (handleSack cfg eng b acked' now₁ nowSend₁ ok₁).1 b acked now₂ nowSend₂
      ok₂).1.activeSends.get? b).map SendState.window := by
  rw [window_handleSack_handleSack cfg h, window_handleSack_handleSack cfg h,
    Finset.union_right_comm]

/-- Handling a SACK again changes neither the acked set nor the window. -/
theorem handleSack_idem_window :
    ((handleSack cfg (handleSack cfg eng b acked now₁ nowSend₁ ok₁).1 b acked now₂ nowSend₂
      ok₂).1.activeSends.get? b).map SendState.window =
    ((handleSack cfg eng b acked now₁ nowSend₁ ok₁).1.activeSends.get? b).map
      SendState.window := by
  rw [window_handleSack_handleSack cfg h]
  cases hget : eng.activeSends.get? b with
  | none => simp only [handleSack_of_get?_eq_none, hget, Option.map_none']
  | some st =>
    obtain ⟨st₁, h₁, i₁, t₁, w₁⟩ := handleSack_get? cfg hget (h b st hget) acked now₁ nowSend₁ ok₁
    rw [h₁, Option.map_some', Option.map_some', i₁.window_eq, t₁, w₁, Finset.union_assoc,
      Finset.union_self]

end TwoSacks

/-! ## Every run of a fresh engine -/

theorem engineInv_fresh (g : String → Finset Nat) (store : Store) :
    EngineInv g { store } := fun b st h => by simp at h

/-- Along every run of a fresh engine each `SendState` holds the window invariant, its acked set
    the union of the SACK sets handled for it. Hence an operation that does not build the state
    afresh only grows its acked set and window, and two SACKs handled in either order, or one
    handled twice, leave the same acked set and window. -/
theorem sendState_invariant (store : Store) (ops : List SendOp) :
    let eng := run cfg fec srcNodeId { store } ops
    EngineInv (sackedRun cfg fec srcNodeId (fun _ => ∅) { store } ops) eng ∧
    (∀ op b st st', ¬ op.builds cfg fec srcNodeId eng b → eng.activeSends.get? b = some st →
      (step cfg fec srcNodeId eng op).1.activeSends.get? b = some st' → Grows st st') ∧
    (∀ b acked acked' now₁ nowSend₁ now₂ nowSend₂ ok₁ ok₂,
      ((handleSack cfg (handleSack cfg eng b acked now₁ nowSend₁ ok₁).1 b acked' now₂ nowSend₂
        ok₂).1.activeSends.get? b).map SendState.window =
      ((handleSack cfg (handleSack cfg eng b acked' now₁ nowSend₁ ok₁).1 b acked now₂ nowSend₂
        ok₂).1.activeSends.get? b).map SendState.window ∧
      ((handleSack cfg (handleSack cfg eng b acked now₁ nowSend₁ ok₁).1 b acked now₂ nowSend₂
        ok₂).1.activeSends.get? b).map SendState.window =
      ((handleSack cfg eng b acked now₁ nowSend₁ ok₁).1.activeSends.get? b).map
        SendState.window) := by
  have h := engineInv_run cfg fec srcNodeId ops (engineInv_fresh (fun _ => ∅) store)
  exact ⟨h, fun op _ _ _ hb => step_grows cfg fec srcNodeId h op hb,
    fun b _ _ _ _ _ _ _ _ => ⟨handleSack_comm_window cfg h b .., handleSack_idem_window cfg h b ..⟩⟩

end SendEngine

end Courier
