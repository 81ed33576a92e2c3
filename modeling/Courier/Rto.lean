import Courier.SendInvariant

/-
  Courier: the retransmission timeout and Karn's rule (`send_engine.py`).

  `_update_rtt_estimates` clamps the timeout to `[100, max_rto_ms]` and `check_timeouts`
  doubles it up to `max_rto_ms`. `handle_sack` then overwrites it, whenever a SACK acks a new
  chunk, with `max(smoothed_rtt + 4 * rtt_variance, base_rto_ms)` and no clamp
  (`sackState_timeoutInterval`), so one RTT sample of a second is enough to arm deadlines past
  `max_rto_ms` (`handleSack_timeout_past_maxRto`).

  Karn's rule lives in `retransmitted_chunks`: `retransmit_chunks` marks what it re-sends and
  `handle_sack` takes no sample from a marked chunk. `_send_window` also re-sends a chunk whose
  deadline has passed, but marks nothing and stamps a new send time, so the next SACK takes a sample from a chunk sent twice
  (`sendWindow_resend_sampled`).

  The estimator: `handle_sack` feeds `_update_rtt_estimates` one sample per newly acked chunk
  that has a send time and no retransmission mark, in the order of the ids. On
  `(smoothed_rtt, rtt_variance)` the update is `rttEstimate`, which
  reads a smoothed RTT of `0` or `300` as "no measurement yet" and seeds afresh. From a fresh
  state it follows RFC 6298 seeded by the first sample (`rfc6298`) on every prefix of the later
  samples exactly when, wherever the recurrence stands at a smoothed RTT of `0` or `300` before a
  sample, seeding from that sample gives what the update would
  (`updateRttEstimates_rfc6298_iff`). Samples `300`, then `100` end at `(100, 50)`, where
  RFC 6298 has `(275, 325 / 2)` (`handleSack_reseeds_at_300`).
-/

namespace Courier

/-- The estimates of a state: `(smoothed_rtt, rtt_variance)`. -/
def SendState.estimates (st : SendState) : ℚ × ℚ := (st.smoothedRtt, st.rttVariance)

namespace SendEngine

variable (cfg : TransferConfig)

/-! ## The timeout -/

/-- `handle_sack` sets the timeout from the estimates when the SACK acks a new chunk, with
    `base_rto_ms` below it and nothing above. -/
theorem sackState_timeoutInterval (now : ℚ) (st : SendState) (acked : Finset Nat) :
    (sackState cfg now st acked).timeoutInterval =
      if (acked \ st.ackedChunks).Nonempty then
        max ((sackState cfg now st acked).smoothedRtt +
          4 * (sackState cfg now st acked).rttVariance) cfg.baseRtoMs
      else st.timeoutInterval := by
  unfold sackState
  dsimp only
  split
  · rfl
  · rename_i h
    rw [Finset.not_nonempty_iff_eq_empty.mp h]
    rfl

section Runs

attribute [local semireducible] Rat.add Rat.mul Rat.inv Rat.sub

/-- The failing run: with `base_rto_ms = 200 ≤ max_rto_ms = 500`, a SACK arriving a second
    after the first chunk was sent sets the timeout to `3000`, and the next chunk goes out with
    its deadline `3000` after its send. -/
theorem handleSack_timeout_past_maxRto :
    ((run { chunkSize := 1, windowSize := 1, baseRtoMs := 200, maxRtoMs := 500 } {} "n" {}
      [.sendFile "f" [1, 2] "d" false "b" 0 fun _ => true,
       .handleSack "b" {0} 1000 1000 fun _ => true]).activeSends.get? "b").map
      (fun st => (st.timeoutInterval, st.sendTimestamps.get? 1, st.chunkTimers.get? 1)) =
    some (3000, some 1000, some 4000) := by
  decide

end Runs

/-! ## Karn's rule -/

/-- The chunk id of a DATA message. -/
def dataChunkId : Message → Option Nat
  | .data m => some m.chunkId
  | _ => none

section Runs

attribute [local semireducible] Rat.add Rat.mul Rat.inv Rat.sub

/-- The failing run: chunk `1` goes out at `0` with the window `[0, 2)`; the SACK of chunk `0`
    at `250` moves the window to `[1, 3)` and `_send_window` sends chunk `1` again, its deadline
    `200` past; the SACK of chunk `1` at `350` then feeds the sample `100` into the estimator,
    which moves `smoothed_rtt` from `250` to `925 / 4`. -/
theorem sendWindow_resend_sampled :
    let cfg : TransferConfig :=
      { chunkSize := 1, windowSize := 2, baseRtoMs := 200, maxRtoMs := 5000 }
    let r₁ := step cfg {} "n" {} (.sendFile "f" [1, 2, 3] "d" false "b" 0 fun _ => true)
    let r₂ := step cfg {} "n" r₁.1 (.handleSack "b" {0} 250 250 fun _ => true)
    let r₃ := step cfg {} "n" r₂.1 (.handleSack "b" {1} 350 350 fun _ => true)
    (r₁.2 ++ r₂.2).filterMap dataChunkId = [0, 1, 1, 2] ∧
      (r₂.1.activeSends.get? "b").map SendState.smoothedRtt = some 250 ∧
      (r₃.1.activeSends.get? "b").map SendState.smoothedRtt = some (925 / 4) := by
  decide

end Runs

/-! ## The estimator and RFC 6298 -/

/-- What `_update_rtt_estimates` does to `(smoothed_rtt, rtt_variance)`: a smoothed RTT of `0`
    or `300` counts as "no measurement yet", and the sample seeds the estimator afresh. -/
def rttEstimate (e : ℚ × ℚ) (rtt : ℚ) : ℚ × ℚ :=
  if e.1 = 0 ∨ e.1 = 300 then (rtt, rtt / 2)
  else (7 / 8 * e.1 + 1 / 8 * rtt, 3 / 4 * e.2 + 1 / 4 * |e.1 - rtt|)

theorem estimates_updateRttEstimates (st : SendState) (rtt : ℚ) :
    (updateRttEstimates cfg st rtt).estimates = rttEstimate st.estimates rtt := by
  unfold updateRttEstimates rttEstimate SendState.estimates
  split <;> rfl

theorem estimates_foldl_updateRttEstimates (l : List ℚ) (st : SendState) :
    (l.foldl (updateRttEstimates cfg) st).estimates = l.foldl rttEstimate st.estimates := by
  induction l generalizing st with
  | nil => rfl
  | cons s l ih => rw [List.foldl_cons, ih, estimates_updateRttEstimates]; rfl

/-- One update of RFC 6298 in the spec's words: `RTTVAR ← 3/4 RTTVAR + 1/4 |SRTT - s|`, then
    `SRTT ← 7/8 SRTT + 1/8 s`. -/
def rfc6298Step (e : ℚ × ℚ) (s : ℚ) : ℚ × ℚ :=
  (7 / 8 * e.1 + 1 / 8 * s, 3 / 4 * e.2 + 1 / 4 * |e.1 - s|)

/-- RFC 6298 over the samples `s₁ :: rest`, seeded by the first: `(s₁, s₁ / 2)`. -/
def rfc6298 (s₁ : ℚ) (rest : List ℚ) : ℚ × ℚ := rest.foldl rfc6298Step (s₁, s₁ / 2)

/-- Seeding gives what the update would only where the update has nothing to move: at a
    smoothed RTT of `0`, for a zero sample and variance, and at `300`, for a sample of `300`
    and a variance of `200`. -/
theorem rttEstimate_eq_rfc6298Step_iff (e : ℚ × ℚ) (s : ℚ) :
    rttEstimate e s = rfc6298Step e s ↔
      (e.1 = 0 → s = 0 ∧ e.2 = 0) ∧ (e.1 = 300 → s = 300 ∧ e.2 = 200) := by
  obtain ⟨x, v⟩ := e
  simp only [rttEstimate, rfc6298Step]
  by_cases h0 : x = 0
  · subst h0
    simp only [true_or, if_true, Prod.mk.injEq, zero_sub, abs_neg, mul_zero, zero_add,
      true_implies, OfNat.zero_ne_ofNat, false_implies, and_true]
    constructor
    · rintro ⟨h1, h2⟩
      have hs : s = 0 := by linarith only [h1]
      subst hs
      exact ⟨rfl, by simp at h2; linarith only [h2]⟩
    · rintro ⟨rfl, rfl⟩
      norm_num
  · by_cases h3 : x = 300
    · subst h3
      simp only [or_true, if_true, Prod.mk.injEq, OfNat.ofNat_ne_zero, false_implies,
        true_implies, true_and]
      constructor
      · rintro ⟨h1, h2⟩
        have hs : s = 300 := by linarith only [h1]
        subst hs
        exact ⟨rfl, by norm_num at h2; linarith only [h2]⟩
      · rintro ⟨rfl, rfl⟩
        norm_num
    · simp [h0, h3]

theorem foldl_take_succ {α β : Type} (f : β → α → β) (b : β) (l : List α) {i : Nat}
    (hi : i < l.length) : (l.take (i + 1)).foldl f b = f ((l.take i).foldl f b) l[i] := by
  rw [List.take_succ, List.getElem?_eq_getElem hi, List.foldl_append]
  rfl

/-- From a common start, the estimator follows RFC 6298 over every prefix of `l` exactly when
    it does so at each sample, from where the recurrence stands. -/
theorem foldl_rttEstimate_eq_iff (e : ℚ × ℚ) (l : List ℚ) :
    (∀ i ≤ l.length, (l.take i).foldl rttEstimate e = (l.take i).foldl rfc6298Step e) ↔
      ∀ i (hi : i < l.length), rttEstimate ((l.take i).foldl rfc6298Step e) l[i] =
        rfc6298Step ((l.take i).foldl rfc6298Step e) l[i] := by
  constructor
  · intro h i hi
    have h₁ := h (i + 1) hi
    rwa [foldl_take_succ _ _ _ hi, foldl_take_succ _ _ _ hi, h i hi.le] at h₁
  · intro h i
    induction i with
    | zero => exact fun _ => rfl
    | succ i ih =>
      intro hi
      rw [foldl_take_succ _ _ _ hi, foldl_take_succ _ _ _ hi, ih (by omega), h i hi]

/-- Samples `s₁ :: rest` fed to a fresh state: its estimates follow RFC 6298 seeded by `s₁`
    after every prefix exactly when, wherever the recurrence has a smoothed RTT of `0` or `300`
    before a sample, that sample and the variance are such that seeding changes nothing. -/
theorem updateRttEstimates_rfc6298_iff (b : String) (s₁ : ℚ) (rest : List ℚ) :
    (∀ i ≤ rest.length, ((s₁ :: rest.take i).foldl (updateRttEstimates cfg)
        { bundleId := b }).estimates = rfc6298 s₁ (rest.take i)) ↔
      ∀ i (hi : i < rest.length),
        ((rfc6298 s₁ (rest.take i)).1 = 0 → rest[i] = 0 ∧ (rfc6298 s₁ (rest.take i)).2 = 0) ∧
        ((rfc6298 s₁ (rest.take i)).1 = 300 →
          rest[i] = 300 ∧ (rfc6298 s₁ (rest.take i)).2 = 200) := by
  have hcode : ∀ i, ((s₁ :: rest.take i).foldl (updateRttEstimates cfg)
      { bundleId := b }).estimates = (rest.take i).foldl rttEstimate (s₁, s₁ / 2) := fun i => by
    rw [estimates_foldl_updateRttEstimates, List.foldl_cons]
    rfl
  simp only [hcode, rfc6298]
  exact (foldl_rttEstimate_eq_iff _ rest).trans
    (forall_congr' fun i => forall_congr' fun _ => rttEstimate_eq_rfc6298Step_iff _ _)

section Runs

attribute [local semireducible] Rat.add Rat.mul Rat.inv Rat.sub

/-- The failing run: chunk `0`, acked `300` ms after its send, seeds the estimator at
    `(300, 150)`; chunk `1`, acked `100` ms after its send, finds `smoothed_rtt = 300`, is taken
    for a first measurement and seeds again at `(100, 50)`, where RFC 6298 gives
    `(275, 325 / 2)`. -/
theorem handleSack_reseeds_at_300 :
    ((run { chunkSize := 1, windowSize := 1 } {} "n" {}
      [.sendFile "f" [1, 2] "d" false "b" 0 fun _ => true,
       .handleSack "b" {0} 300 300 fun _ => true,
       .handleSack "b" {1} 400 400 fun _ => true]).activeSends.get? "b").map SendState.estimates =
      some (100, 50) ∧ rfc6298 300 [100] = (275, 325 / 2) ∧
    ¬ ∀ i ≤ [(100 : ℚ)].length, (((300 : ℚ) :: [100].take i).foldl (updateRttEstimates {})
        { bundleId := "b" }).estimates = rfc6298 300 ([100].take i) :=
  ⟨by decide, by norm_num [rfc6298, rfc6298Step], fun h => by
    have := ((updateRttEstimates_rfc6298_iff {} "b" 300 [100]).mp h 0 (by decide)).2 rfl
    norm_num at this⟩

end Runs

end SendEngine

end Courier
