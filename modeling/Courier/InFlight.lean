import Courier.Redrive
import Courier.Rto
import Mathlib.Order.Interval.Finset.Nat

/-
  Courier: the window bounds what is in flight, and the timeout how soon it is sent again.

  A chunk id of a `SendState` is in flight while it has a deadline in `chunk_timers`: it was
  passed to `network_send` and is neither acked nor timed out. `_send_window` and
  `retransmit_chunks` are the only calls that send DATA messages, and each sets the deadline of
  every id it sends to its clock plus `timeout_interval` (`sendWindowLoop_sent_armed`,
  `retransmitLoop_sent_armed`). The window invariant of every run says that the ids below
  `window_start` are acked and that no acked id has a deadline; `Tidy` says deadlines are armed
  only below `window_end`. So every deadline lies in `[window_start, window_end)`, a range of at
  most `window_size` ids.

  `timeout_interval` starts at `base_rto_ms`. `check_timeouts` doubles it up to `max_rto_ms`, and
  a SACK that acks a new chunk sets it to `max(smoothed_rtt + 4 * rtt_variance, base_rto_ms)`,
  after the clamp of `_update_rtt_estimates`. So it never drops below
  `min(base_rto_ms, max_rto_ms)`, whatever the RTT samples (`Floored`).

  Proved:
  * `window_bounds_flight`: in every run of a fresh `SendEngine`, whatever `network_send`
    returns, whatever the clocks read and with restarts (`resume_transfers`) anywhere, every
    state has its deadlines in `[window_start, window_end)`, so at most `window_size` chunks in
    flight; and every DATA message the next operation sends is of a chunk id of that window
    that is not acked and has a deadline after the operation.
  * `timeout_floor`: in every such run every state's timeout is at least
    `min(base_rto_ms, max_rto_ms)`, and every DATA message the next operation sends has its
    chunk's deadline at the operation's clock plus that timeout: `check_timeouts` leaves it in
    place at every clock before the floor has passed since the send.
-/
namespace Courier

/-- A list of distinct ids, all in `[a, b)`, has at most `b - a` entries: the ids with a
    deadline in `[window_start, window_end)` number at most the window's width. -/
theorem Dict.length_keys_le {d : Dict Nat ℚ} {a b : Nat}
    (h : ∀ c, (d.get? c).isSome → a ≤ c ∧ c < b) : d.keys.length ≤ b - a :=
  calc d.keys.length = d.keys.toFinset.card := (List.toFinset_card_of_nodup d.nodup).symm
    _ ≤ (Finset.Ico a b).card := Finset.card_le_card fun c hc =>
      Finset.mem_Ico.mpr (h c (Dict.mem_keys.mp (List.mem_toFinset.mp hc)))
    _ = b - a := Nat.card_Ico a b

namespace SendEngine

variable (cfg : TransferConfig)

/-! ## Every DATA message sent is armed -/

section Loops

variable (chunks : Dict Nat ChunkRecord) (now : ℚ) (ok : Nat → Bool)

/-- A deadline of `now` plus the timeout stays through `_send_window`'s loop at `now`, which
    arms every id it sends at that same deadline. -/
theorem sendWindowLoop_deadline (cs : List Nat) (n : Nat) (st : SendState) {c : Nat}
    (hc : st.chunkTimers.get? c = some (now + st.timeoutInterval)) :
    (sendWindowLoop chunks now ok cs n st).1.chunkTimers.get? c =
      some (now + st.timeoutInterval) := by
  induction cs generalizing n st with
  | nil => exact hc
  | cons c' cs ih =>
    rw [sendWindowLoop]
    split_ifs
    · exact ih n st hc
    · exact ih n st hc
    · split
      · exact ih n st hc
      · refine ih (n + 1) _ ?_
        rw [Dict.get?_insert]
        split_ifs
        · rfl
        · exact hc
    · split <;> exact ih _ st hc

/-- A deadline of `now` plus the timeout stays through `retransmit_chunks`' loop at `now`. -/
theorem retransmitLoop_deadline (cs : List Nat) (n : Nat) (st : SendState) {c : Nat}
    (hc : st.chunkTimers.get? c = some (now + st.timeoutInterval)) :
    (retransmitLoop chunks now ok cs n st).1.chunkTimers.get? c =
      some (now + st.timeoutInterval) := by
  induction cs generalizing n st with
  | nil => exact hc
  | cons c' cs ih =>
    rw [retransmitLoop]
    split_ifs
    · exact ih n st hc
    · split
      · exact ih n st hc
      · refine ih (n + 1) _ ?_
        rw [Dict.get?_insert]
        split_ifs
        · rfl
        · exact hc
    · split <;> exact ih _ st hc

/-- Every DATA message `_send_window`'s loop sends is of a chunk of its dictionary whose id has
    the deadline `now` plus the timeout when the loop ends. -/
theorem sendWindowLoop_sent_armed (cs : List Nat) (n : Nat) (st : SendState) :
    ∀ m ∈ (sendWindowLoop chunks now ok cs n st).2, ∃ c ch, chunks.get? c = some ch ∧
      m = chunkMsg st.totalChunks ch ∧
      (sendWindowLoop chunks now ok cs n st).1.chunkTimers.get? c =
        some (now + st.timeoutInterval) := by
  induction cs generalizing n st with
  | nil => exact fun _ hm => absurd hm (List.not_mem_nil _)
  | cons c cs ih =>
    rw [sendWindowLoop]
    split_ifs
    · exact ih n st
    · exact ih n st
    · split
      · exact ih n st
      · rename_i ch hch
        rintro m (_ | ⟨_, hm⟩)
        · exact ⟨c, ch, hch, rfl, sendWindowLoop_deadline chunks now ok cs (n + 1) _ (by simp)⟩
        · exact ih (n + 1) _ m hm
    · split <;> exact ih _ st

/-- Every DATA message `retransmit_chunks`' loop sends is of a chunk of its dictionary whose id
    has the deadline `now` plus the timeout when the loop ends. -/
theorem retransmitLoop_sent_armed (cs : List Nat) (n : Nat) (st : SendState) :
    ∀ m ∈ (retransmitLoop chunks now ok cs n st).2, ∃ c ch, chunks.get? c = some ch ∧
      m = chunkMsg st.totalChunks ch ∧
      (retransmitLoop chunks now ok cs n st).1.chunkTimers.get? c =
        some (now + st.timeoutInterval) := by
  induction cs generalizing n st with
  | nil => exact fun _ hm => absurd hm (List.not_mem_nil _)
  | cons c cs ih =>
    rw [retransmitLoop]
    split_ifs
    · exact ih n st
    · split
      · exact ih n st
      · rename_i ch hch
        rintro m (_ | ⟨_, hm⟩)
        · exact ⟨c, ch, hch, rfl, retransmitLoop_deadline chunks now ok cs (n + 1) _ (by simp)⟩
        · exact ih (n + 1) _ m hm
    · split <;> exact ih _ st

end Loops

/-- A message sent at clock `now` by an operation that left the engine `eng`: the DATA message
    of a chunk of a bundle whose state has the message's chunk count and, under the chunk's id,
    the deadline `now` plus its timeout. -/
def ArmedBy (eng : SendEngine) (now : ℚ) (m : Message) : Prop :=
  ∃ b st ch, eng.activeSends.get? b = some st ∧ ch.bundleId = b ∧
    m = chunkMsg st.totalChunks ch ∧
    st.chunkTimers.get? ch.chunkId = some (now + st.timeoutInterval)

/-- The clock the sends of an operation read: `_send_window`'s in `send_file` and
    `handle_sack`, `retransmit_chunks`' own; `0` for the operations that send nothing. -/
def SendOp.sendClock : SendOp → ℚ
  | .sendFile _ _ _ _ _ now _ | .handleSack _ _ _ now _ | .retransmitChunks _ now _ => now
  | _ => 0

namespace Tidy

variable {eng : SendEngine} (h : Tidy eng)
include h

theorem sendWindow_armed (b : String) (now : ℚ) (ok : Nat → Bool) :
    ∀ m ∈ (SendEngine.sendWindow eng b now ok).2,
      ArmedBy (SendEngine.sendWindow eng b now ok).1 now m := by
  unfold SendEngine.sendWindow
  split
  · exact fun _ hm => absurd hm (List.not_mem_nil _)
  · rename_i st hget
    intro m hm
    obtain ⟨c, ch, hch, rfl, ht⟩ := sendWindowLoop_sent_armed _ now ok _ 0 st m hm
    obtain ⟨hid, hb⟩ := (h.windowChunks b).2 c ch hch
    refine ⟨b, (sendWindowLoop (eng.windowChunks b).2 now ok
      (List.range' st.windowStart (st.windowEnd - st.windowStart)) 0 st).1, ch, by simp, hb, ?_,
      by rw [hid, ht, (sendWindowLoop_arms _ now ok _ 0 st).timeout]⟩
    rw [(sendWindowLoop_keeps _ now ok _ 0 st).totalChunks]

theorem retransmitChunks_armed (b : String) (now : ℚ) (ok : Nat → Bool) :
    ∀ m ∈ (SendEngine.retransmitChunks eng b now ok).2,
      ArmedBy (SendEngine.retransmitChunks eng b now ok).1 now m := by
  unfold SendEngine.retransmitChunks
  split
  · exact fun _ hm => absurd hm (List.not_mem_nil _)
  · rename_i st hget
    split
    · exact fun _ hm => absurd hm (List.not_mem_nil _)
    · intro m hm
      obtain ⟨c, ch, hch, rfl, ht⟩ := retransmitLoop_sent_armed _ now ok _ 0 _ m hm
      obtain ⟨hid, hb⟩ := h.store.keyedChunks_load b c ch hch
      refine ⟨b, (retransmitLoop (chunkDict (eng.store.loadChunksForBundle b)) now ok
        st.retransmitQueue 0 { st with retransmitQueue := [] }).1, ch, by simp, hb, ?_,
        by rw [hid, ht, (retransmitLoop_arms _ now ok _ 0 _).timeout]⟩
      rw [(retransmitLoop_keeps _ now ok _ 0 _).totalChunks]

theorem handleSack_armed (b : String) (acked : Finset Nat) (now nowSend : ℚ) (ok : Nat → Bool) :
    ∀ m ∈ (SendEngine.handleSack cfg eng b acked now nowSend ok).2,
      ArmedBy (SendEngine.handleSack cfg eng b acked now nowSend ok).1 nowSend m := by
  unfold SendEngine.handleSack
  split
  · exact fun _ hm => absurd hm (List.not_mem_nil _)
  · rename_i st hget
    dsimp only
    split
    · exact fun _ hm => absurd hm (List.not_mem_nil _)
    · split
      · exact (h.insert ((h.states b st hget).sackState cfg now acked)).sendWindow_armed b
          nowSend ok
      · exact fun _ hm => absurd hm (List.not_mem_nil _)

/-- Every operation sends only DATA messages it leaves armed at its clock. -/
theorem step_armed (fec : FECConfig) (srcNodeId : String) (op : SendOp) :
    ∀ m ∈ (SendEngine.step cfg fec srcNodeId eng op).2,
      ArmedBy (SendEngine.step cfg fec srcNodeId eng op).1 op.sendClock m := by
  have nil : ∀ e now, ∀ m ∈ ([] : List Message), ArmedBy e now m :=
    fun _ _ _ hm => absurd hm (List.not_mem_nil _)
  cases op with
  | sendFile filePath fileData destination fecEnabled bundleId now ok =>
    simp only [SendEngine.step]
    cases hr : SendEngine.sendFile cfg fec srcNodeId eng filePath fileData destination
      fecEnabled bundleId now ok with
    | none => exact nil eng _
    | some r =>
      obtain ⟨e, he, rfl⟩ := h.sendFile_tidy cfg fec srcNodeId hr
      exact he.sendWindow_armed bundleId now ok
  | handleSack bundleId acked now nowSend ok =>
    exact h.handleSack_armed cfg bundleId acked now nowSend ok
  | retransmitChunks bundleId now ok => exact h.retransmitChunks_armed bundleId now ok
  | _ => exact nil _ _

end Tidy

/-! ## Deadlines lie in the window -/

/-- In a tidy engine whose states hold the window invariant, every deadline lies in its state's
    window: below `window_end` by `Tidy`, and not below `window_start`, since the ids there are
    acked and acked ids have none. -/
theorem timers_in_window {eng : SendEngine} {g : String → Finset Nat} (ht : Tidy eng)
    (hi : EngineInv g eng) {b : String} {st : SendState} (hb : eng.activeSends.get? b = some st)
    {c : Nat} (hc : (st.chunkTimers.get? c).isSome) : st.windowStart ≤ c ∧ c < st.windowEnd := by
  have hs := hi b st hb
  refine ⟨not_lt.mp fun hlt => ?_, (ht.states b st hb).timers c hc⟩
  rw [hs.windowStart_eq] at hlt
  rw [hs.no_timer c (mem_of_lt_firstUnacked hlt)] at hc
  cases hc

section Runs

variable (fec : FECConfig) (srcNodeId : String)

/-- After a run of a fresh engine, every DATA message the next operation sends is of a chunk id
    of its bundle's window, after the operation, that is not acked and has the operation's clock
    plus the timeout as its deadline. -/
theorem run_step_sent (ops : List SendOp) (op : SendOp) :
    let eng := run cfg fec srcNodeId {} ops
    ∀ m ∈ (step cfg fec srcNodeId eng op).2, ∃ b st ch,
      (step cfg fec srcNodeId eng op).1.activeSends.get? b = some st ∧ ch.bundleId = b ∧
        m = chunkMsg st.totalChunks ch ∧ st.windowStart ≤ ch.chunkId ∧
        ch.chunkId < st.windowEnd ∧ ch.chunkId ∉ st.ackedChunks ∧
        st.chunkTimers.get? ch.chunkId = some (op.sendClock + st.timeoutInterval) := by
  intro eng m hm
  have ht : Tidy eng :=
    (tidy_fresh Store.empty fun _ _ h => by simp [Store.empty] at h).run cfg fec srcNodeId ops
  have hi' := engineInv_step cfg fec srcNodeId
    (engineInv_run cfg fec srcNodeId ops (engineInv_fresh (fun _ => ∅) Store.empty)) op
  obtain ⟨b, st, ch, hb, hbid, rfl, hc⟩ := ht.step_armed cfg fec srcNodeId op m hm
  have hs : (st.chunkTimers.get? ch.chunkId).isSome := by rw [hc]; rfl
  have hw := timers_in_window (ht.step cfg fec srcNodeId op).1 hi' hb hs
  refine ⟨b, st, ch, hb, hbid, rfl, hw.1, hw.2, fun ha => ?_, hc⟩
  rw [(hi' b st hb).no_timer _ ha] at hc
  cases hc

/-- In every run of a fresh engine, every state has its deadlines in `[window_start,
    window_end)`, so at most `window_size` chunks in flight, and every DATA message the next
    operation sends is of a chunk id of its bundle's window, after the operation, that is not
    acked and has a deadline. -/
theorem window_bounds_flight (ops : List SendOp) :
    let eng := run cfg fec srcNodeId {} ops
    (∀ b st, eng.activeSends.get? b = some st →
      (∀ c, (st.chunkTimers.get? c).isSome → st.windowStart ≤ c ∧ c < st.windowEnd) ∧
        st.chunkTimers.keys.length ≤ st.windowSize) ∧
    ∀ op, ∀ m ∈ (step cfg fec srcNodeId eng op).2, ∃ b st ch,
      (step cfg fec srcNodeId eng op).1.activeSends.get? b = some st ∧ ch.bundleId = b ∧
        m = chunkMsg st.totalChunks ch ∧ st.windowStart ≤ ch.chunkId ∧
        ch.chunkId < st.windowEnd ∧ ch.chunkId ∉ st.ackedChunks ∧
        (st.chunkTimers.get? ch.chunkId).isSome := by
  intro eng
  have ht : Tidy eng :=
    (tidy_fresh Store.empty fun _ _ h => by simp [Store.empty] at h).run cfg fec srcNodeId ops
  have hi := engineInv_run cfg fec srcNodeId ops (engineInv_fresh (fun _ => ∅) Store.empty)
  refine ⟨fun b st hb => ⟨fun c hc => timers_in_window ht hi hb hc, ?_⟩, fun op m hm => ?_⟩
  · have hw := (ht.states b st hb).windowEnd_eq
    calc st.chunkTimers.keys.length ≤ st.windowEnd - st.windowStart :=
          Dict.length_keys_le fun c hc => timers_in_window ht hi hb hc
      _ ≤ st.windowSize := by omega
  · obtain ⟨b, st, ch, hb, hbid, rfl, h1, h2, h3, hc⟩ := run_step_sent cfg fec srcNodeId ops op m hm
    exact ⟨b, st, ch, hb, hbid, rfl, h1, h2, h3, by rw [hc]; rfl⟩

end Runs

/-! ## The timeout never drops below its floor -/

/-- Every state's `timeout_interval` is at least `L`. -/
def Floored (L : ℚ) (eng : SendEngine) : Prop :=
  ∀ b st, eng.activeSends.get? b = some st → L ≤ st.timeoutInterval

section Floor

variable {cfg} {L : ℚ}

/-- A SACK keeps a timeout at least a floor below `base_rto_ms`: one that acks a new chunk sets
    it to at least `base_rto_ms`, whatever `_update_rtt_estimates` did, and any other leaves
    it. -/
theorem le_sackState_timeoutInterval (hL : L ≤ cfg.baseRtoMs) (now : ℚ) {st : SendState}
    (h : L ≤ st.timeoutInterval) (acked : Finset Nat) :
    L ≤ (sackState cfg now st acked).timeoutInterval := by
  rw [sackState_timeoutInterval]
  split_ifs
  · exact hL.trans (le_max_right _ _)
  · exact h

/-- `check_timeouts` keeps a timeout at least a floor between `0` and `max_rto_ms`: doubling a
    timeout above the floor, capped at `max_rto_ms`, stays above it. -/
theorem le_checkStateTimeouts_timeoutInterval (hL : 0 ≤ L) (hLM : L ≤ cfg.maxRtoMs) (now : ℚ)
    {st : SendState} (h : L ≤ st.timeoutInterval) :
    L ≤ (checkStateTimeouts cfg now st).timeoutInterval := by
  unfold checkStateTimeouts
  split
  · exact h
  · dsimp only
    split
    · exact h
    · exact le_min (by linarith) hLM

namespace Floored

variable {eng : SendEngine} (h : Floored L eng)
include h

theorem insert {eng' : SendEngine} {b : String} {st : SendState} (hst : L ≤ st.timeoutInterval)
    (he : eng'.activeSends = eng.activeSends.insert b st) : Floored L eng' := fun x sx hx => by
  rw [he, Dict.get?_insert] at hx
  split at hx
  · cases hx; exact hst
  · exact h x sx hx

theorem sendWindow (b : String) (now : ℚ) (ok : Nat → Bool) :
    Floored L (sendWindow eng b now ok).1 := by
  unfold SendEngine.sendWindow
  split
  · exact h
  · rename_i st hget
    exact h.insert (by rw [(sendWindowLoop_arms _ _ _ _ _ st).timeout]; exact h b st hget) rfl

theorem completeTransfer (b : String) : Floored L (completeTransfer eng b) := fun x sx hx => by
  rw [get?_completeTransfer] at hx
  split_ifs at hx
  · obtain ⟨st, hst, rfl⟩ := Option.map_eq_some'.mp hx
    exact h b st hst
  · exact h x sx hx

theorem handleDelivered (b : String) : Floored L (handleDelivered eng b) := by
  unfold SendEngine.handleDelivered
  split
  · exact h.completeTransfer b
  · exact h

theorem handleSack (hL : L ≤ cfg.baseRtoMs) (b : String) (acked : Finset Nat) (now nowSend : ℚ)
    (ok : Nat → Bool) : Floored L (handleSack cfg eng b acked now nowSend ok).1 := by
  unfold SendEngine.handleSack
  split
  · exact h
  · rename_i st hget
    have h₁ : Floored L
        { eng with activeSends := eng.activeSends.insert b (sackState cfg now st acked) } :=
      h.insert (le_sackState_timeoutInterval hL now (h b st hget) acked) rfl
    dsimp only
    split
    · exact h₁.completeTransfer b
    · split
      · exact h₁.sendWindow b nowSend ok
      · exact h₁

theorem checkTimeouts (hL : 0 ≤ L) (hLM : L ≤ cfg.maxRtoMs) (now : ℚ) :
    Floored L (checkTimeouts cfg eng now) := fun b st' hb => by
  simp only [SendEngine.checkTimeouts, Dict.get?_mapVal, Option.map_eq_some'] at hb
  obtain ⟨st, hget, rfl⟩ := hb
  exact le_checkStateTimeouts_timeoutInterval hL hLM now (h b st hget)

theorem retransmitChunks (b : String) (now : ℚ) (ok : Nat → Bool) :
    Floored L (retransmitChunks eng b now ok).1 := by
  unfold SendEngine.retransmitChunks
  split
  · exact h
  · rename_i st hget
    split
    · exact h
    · exact h.insert (by rw [(retransmitLoop_arms _ _ _ _ _ _).timeout]; exact h b st hget) rfl

theorem sendFile (hL : L ≤ cfg.baseRtoMs) (fec : FECConfig) (srcNodeId : String)
    {filePath destination bundleId : String} {fileData : Bytes} {fecEnabled : Bool} {now : ℚ}
    {ok : Nat → Bool} {r : SendEngine × List Message}
    (hr : sendFile cfg fec srcNodeId eng filePath fileData destination fecEnabled bundleId now ok =
      some r) :
    Floored L r.1 := by
  obtain ⟨chunks, row, -, -, rfl⟩ := sendFile_eq_some cfg hr
  refine Floored.sendWindow ?_ bundleId now ok
  exact h.insert hL rfl

theorem resumeTransfers (hL : L ≤ cfg.baseRtoMs) : Floored L (resumeTransfers cfg eng) :=
  fun b st hb => by
    rcases get?_resumeTransfers_eq cfg eng b st hb with ⟨row, rfl⟩ | hget
    · exact hL
    · exact h b st hget

theorem cleanupCompletedTransfers : Floored L (cleanupCompletedTransfers eng) := fun b st hb => by
  simp only [SendEngine.cleanupCompletedTransfers, Dict.get?_filter, Option.filter_eq_some] at hb
  exact h b st hb.1

/-- Every operation keeps every timeout at least a floor between `0` and both `base_rto_ms` and
    `max_rto_ms`. -/
theorem step (hL : 0 ≤ L) (hLB : L ≤ cfg.baseRtoMs) (hLM : L ≤ cfg.maxRtoMs) (fec : FECConfig)
    (srcNodeId : String) (op : SendOp) : Floored L (SendEngine.step cfg fec srcNodeId eng op).1 := by
  cases op with
  | sendFile filePath fileData destination fecEnabled bundleId now ok =>
    simp only [SendEngine.step]
    cases hr : SendEngine.sendFile cfg fec srcNodeId eng filePath fileData destination
      fecEnabled bundleId now ok with
    | none => exact h
    | some r => exact h.sendFile hLB fec srcNodeId hr
  | handleSack bundleId acked now nowSend ok => exact h.handleSack hLB bundleId acked now nowSend ok
  | handleDelivered bundleId => exact h.handleDelivered bundleId
  | checkTimeouts now => exact h.checkTimeouts hL hLM now
  | retransmitChunks bundleId now ok => exact h.retransmitChunks bundleId now ok
  | resumeTransfers => exact h.resumeTransfers hLB
  | cleanupCompletedTransfers => exact h.cleanupCompletedTransfers

end Floored

theorem Floored.run (hL : 0 ≤ L) (hLB : L ≤ cfg.baseRtoMs) (hLM : L ≤ cfg.maxRtoMs)
    (fec : FECConfig) (srcNodeId : String) {eng : SendEngine} (h : Floored L eng)
    (ops : List SendOp) : Floored L (run cfg fec srcNodeId eng ops) := by
  induction ops generalizing eng with
  | nil => exact h
  | cons op ops ih => exact ih (h.step hL hLB hLM fec srcNodeId op)

end Floor

/-- `check_timeouts` at a clock before a deadline of an id that is not acked leaves the
    deadline. -/
theorem checkStateTimeouts_get?_of_lt (now : ℚ) {st : SendState} {c : Nat}
    (ha : c ∉ st.ackedChunks) {t : ℚ} (ht : st.chunkTimers.get? c = some t) (hlt : now < t) :
    (checkStateTimeouts cfg now st).chunkTimers.get? c = some t := by
  cases hc : st.completed
  · exact (checkStateTimeouts_unacked cfg now hc ha).2 t ht hlt
  · rw [checkStateTimeouts, if_pos hc]
    exact ht

variable (fec : FECConfig) (srcNodeId : String)

/-- In every run of a fresh engine, whatever RTT samples the SACKs bring, every state's timeout
    is at least `min(base_rto_ms, max_rto_ms)`; every DATA message the next operation sends has
    its chunk's deadline at the operation's clock plus that timeout, so `check_timeouts` leaves
    the deadline in place at every clock before the floor has passed since the send. -/
theorem timeout_floor (ops : List SendOp) :
    let eng := run cfg fec srcNodeId {} ops
    let L := min (cfg.baseRtoMs : ℚ) cfg.maxRtoMs
    (∀ b st, eng.activeSends.get? b = some st → L ≤ st.timeoutInterval) ∧
    ∀ op, ∀ m ∈ (step cfg fec srcNodeId eng op).2, ∃ b st ch,
      (step cfg fec srcNodeId eng op).1.activeSends.get? b = some st ∧ ch.bundleId = b ∧
        m = chunkMsg st.totalChunks ch ∧ L ≤ st.timeoutInterval ∧
        st.chunkTimers.get? ch.chunkId = some (op.sendClock + st.timeoutInterval) ∧
        ∀ now < op.sendClock + L, (checkStateTimeouts cfg now st).chunkTimers.get? ch.chunkId =
          some (op.sendClock + st.timeoutInterval) := by
  intro eng L
  have hL : 0 ≤ L := le_min (Nat.cast_nonneg _) (Nat.cast_nonneg _)
  have hf : Floored L eng := Floored.run hL (min_le_left _ _) (min_le_right _ _) fec srcNodeId
    (fun _ _ h => by simp at h) ops
  refine ⟨hf, fun op m hm => ?_⟩
  obtain ⟨b, st, ch, hb, hbid, rfl, -, -, ha, hc⟩ := run_step_sent cfg fec srcNodeId ops op m hm
  have hst := hf.step hL (min_le_left _ _) (min_le_right _ _) fec srcNodeId op b st hb
  exact ⟨b, st, ch, hb, hbid, rfl, hst, hc, fun now hnow =>
    checkStateTimeouts_get?_of_lt cfg now ha hc (by linarith)⟩

end SendEngine

end Courier
