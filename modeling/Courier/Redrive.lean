import Courier.Completion
import Courier.Node

/-
  Courier: while every send succeeds, no outstanding chunk is left behind.

  A chunk id of a `SendState` is outstanding when it lies in the window
  `[window_start, window_end)` and is not acked. The sender drives such an id again from two
  places only: its deadline in `chunk_timers`, which `check_timeouts` moves to `retransmit_queue`
  once it has passed, and `retransmit_queue`, which `retransmit_chunks` empties, sending each id
  and arming a new deadline. `Tracked st` says every outstanding id of `st` is in one of the two.
  A `network_send` that fails drops its id from both, and a restart rebuilds states through
  `resume_transfers`, which arms nothing. So the runs here are those of a node that never
  restarts and whose every `network_send` succeeds: `send_file` calls, SACK and DELIVERED
  messages, and ticks (`NodeOp.Reliable`).

  A state also needs its chunks. `Supplies reg eng x st` says the bundle `x` is registered
  (`reg`: for a node, it has a destination in `send_destinations`), has a `chunks` row under
  each id below its chunk count, and, in a cache entry if it has one, a chunk under each.
  `Resends reg eng` says the engine is tidy and its every uncompleted state supplied and
  tracked. Every engine call of these runs keeps it. `_send_window` arms every outstanding id
  of its window, whatever the state held before (`minded_sendWindow`). `handle_sack` moves the
  window end only to call it. A tick re-arms every id it queues.

  Proved:
  * `outstanding_chunk_redriven`: in every such run of a fresh node, every uncompleted
    `SendState` has a destination, and every outstanding id has a deadline or is queued; a tick
    at any time at or past that deadline (any time for a queued id) sends the id's DATA message
    again.
-/

namespace Courier

/-! ## Chunk rows and chunk dictionaries -/

/-- A chunk of a list has an entry under its id in the list's dictionary. -/
theorem isSome_get?_chunkDict {l : List ChunkRecord} {ch : ChunkRecord} (hm : ch ∈ l) :
    ((chunkDict l).get? ch.chunkId).isSome := by
  suffices ∀ d : Dict Nat ChunkRecord, (d.get? ch.chunkId).isSome ∨ ch ∈ l →
      ((l.foldl (fun d c => d.insert c.chunkId c) d).get? ch.chunkId).isSome from
    this ∅ (Or.inr hm)
  clear hm
  induction l with
  | nil => exact fun _ h => h.resolve_right (List.not_mem_nil _)
  | cons a l ih =>
    intro d h
    rw [List.foldl_cons]
    refine ih _ ?_
    rcases h with h | h
    · exact Or.inl (Dict.isSome_get?_insert_of_isSome h)
    · rcases List.mem_cons.mp h with rfl | h
      · exact Or.inl (by rw [Dict.get?_insert, if_pos rfl]; rfl)
      · exact Or.inr h

/-- Saving chunks keeps every row and adds one under each chunk's key. -/
theorem Store.isSome_foldl_saveChunk (chunks : List ChunkRecord) (st : Store) (key : String × Nat) :
    ((chunks.foldl Store.saveChunk st).chunks.get? key).isSome ↔
      (st.chunks.get? key).isSome ∨ ∃ c ∈ chunks, (c.bundleId, c.chunkId) = key := by
  induction chunks generalizing st with
  | nil => simp
  | cons c cs ih =>
    rw [List.foldl_cons, ih, Store.saveChunk, Store.isSome_saveChunksBulk]
    simp [or_assoc]

/-- A row of bundle `x` under id `c` gives an entry under `c` in the dictionary `_send_window`
    and `retransmit_chunks` load from the store. -/
theorem StoreKeyed.isSome_load {st : Store} (h : StoreKeyed st) {x : String} {c : Nat}
    (hc : (st.chunks.get? (x, c)).isSome) :
    ((chunkDict (st.loadChunksForBundle x)).get? c).isSome := by
  obtain ⟨ch, hch⟩ := Option.isSome_iff_exists.mp hc
  obtain ⟨rfl, rfl⟩ := Prod.mk.inj (h _ _ hch)
  refine isSome_get?_chunkDict ?_
  simp only [Store.loadChunksForBundle, List.mem_insertionSort, List.mem_map, List.mem_filter,
    decide_eq_true_eq]
  exact ⟨_, ⟨Dict.mem_entries.mpr hch, rfl⟩, rfl⟩

namespace SendEngine

variable (cfg : TransferConfig)

/-- An id of `st`'s window that is not acked. -/
def Outstanding (st : SendState) (c : Nat) : Prop :=
  st.windowStart ≤ c ∧ c < st.windowEnd ∧ c ∉ st.ackedChunks

/-- Every outstanding id of `st` has a deadline in `chunk_timers` or waits in
    `retransmit_queue`. -/
def Tracked (st : SendState) : Prop :=
  ∀ c, Outstanding st c → (st.chunkTimers.get? c).isSome ∨ c ∈ st.retransmitQueue

/-! ## The loops and the timers -/

section Loops

variable (chunks : Dict Nat ChunkRecord) (now : ℚ)

/-- `_send_window`'s loop keeps every deadline, whatever the sends return. -/
theorem isSome_sendWindowLoop (ok : Nat → Bool) (cs : List Nat) (n : Nat) (st : SendState)
    {c : Nat} (h : (st.chunkTimers.get? c).isSome) :
    ((sendWindowLoop chunks now ok cs n st).1.chunkTimers.get? c).isSome := by
  induction cs generalizing n st with
  | nil => exact h
  | cons c' cs ih =>
    rw [sendWindowLoop]
    split_ifs
    · exact ih n st h
    · exact ih n st h
    · split
      · exact ih n st h
      · exact ih (n + 1) _ (Dict.isSome_get?_insert_of_isSome h)
    · split <;> exact ih _ st h

/-- `retransmit_chunks`' loop keeps every deadline, whatever the sends return. -/
theorem isSome_retransmitLoop (ok : Nat → Bool) (cs : List Nat) (n : Nat) (st : SendState)
    {c : Nat} (h : (st.chunkTimers.get? c).isSome) :
    ((retransmitLoop chunks now ok cs n st).1.chunkTimers.get? c).isSome := by
  induction cs generalizing n st with
  | nil => exact h
  | cons c' cs ih =>
    rw [retransmitLoop]
    split_ifs
    · exact ih n st h
    · split
      · exact ih n st h
      · exact ih (n + 1) _ (Dict.isSome_get?_insert_of_isSome h)
    · split <;> exact ih _ st h

/-- Every send succeeding, `_send_window`'s loop leaves a deadline under every id of its list
    that is not acked and has a chunk. -/
theorem isSome_sendWindowLoop_of_mem (cs : List Nat) (n : Nat) (st : SendState) {c : Nat}
    (hc : c ∈ cs) (ha : c ∉ st.ackedChunks) (hd : (chunks.get? c).isSome) :
    ((sendWindowLoop chunks now (fun _ => true) cs n st).1.chunkTimers.get? c).isSome := by
  induction cs generalizing n st with
  | nil => cases hc
  | cons c' cs ih =>
    rw [sendWindowLoop]
    by_cases he : c = c'
    · subst he
      obtain ⟨ch, hch⟩ := Option.isSome_iff_exists.mp hd
      split_ifs with hlive
      · exact isSome_sendWindowLoop chunks now _ cs n st
          (by revert hlive; cases st.chunkTimers.get? c <;> simp)
      · rw [hch]
        exact isSome_sendWindowLoop chunks now _ cs (n + 1) _ (by simp)
      · exact absurd rfl ‹¬true = true›
    · have hc' := (List.mem_cons.mp hc).resolve_left he
      split_ifs
      · exact ih n st hc' ha
      · exact ih n st hc' ha
      · split
        · exact ih n st hc' ha
        · exact ih (n + 1) _ hc' ha
      · exact absurd rfl ‹¬true = true›

/-- Every send succeeding, `retransmit_chunks`' loop leaves a deadline under every id of its list
    that is not acked and has a chunk. -/
theorem isSome_retransmitLoop_of_mem (cs : List Nat) (n : Nat) (st : SendState) {c : Nat}
    (hc : c ∈ cs) (ha : c ∉ st.ackedChunks) (hd : (chunks.get? c).isSome) :
    ((retransmitLoop chunks now (fun _ => true) cs n st).1.chunkTimers.get? c).isSome := by
  induction cs generalizing n st with
  | nil => cases hc
  | cons c' cs ih =>
    rw [retransmitLoop]
    by_cases he : c = c'
    · subst he
      obtain ⟨ch, hch⟩ := Option.isSome_iff_exists.mp hd
      rw [if_neg ha, hch]
      exact isSome_retransmitLoop chunks now _ cs (n + 1) _ (by simp)
    · have hc' := (List.mem_cons.mp hc).resolve_left he
      split_ifs
      · exact ih n st hc' ha
      · split
        · exact ih n st hc' ha
        · exact ih (n + 1) _ hc' ha
      · exact absurd rfl ‹¬true = true›

/-- `retransmit_chunks`' loop sends every id of its list that is not acked and has a chunk. -/
theorem mem_retransmitLoop (cs : List Nat) (n : Nat) (st : SendState) {c : Nat} (hc : c ∈ cs)
    (ha : c ∉ st.ackedChunks) {ch : ChunkRecord} (hd : chunks.get? c = some ch) :
    chunkMsg st.totalChunks ch ∈ (retransmitLoop chunks now (fun _ => true) cs n st).2 := by
  induction cs generalizing n st with
  | nil => cases hc
  | cons c' cs ih =>
    by_cases he : c = c'
    · subst he
      rw [retransmitLoop, if_neg ha, hd]
      simp
    · have hc' := (List.mem_cons.mp hc).resolve_left he
      rw [retransmitLoop]
      split_ifs
      · exact ih n st hc' ha
      · split
        · exact ih n st hc' ha
        · exact List.mem_cons_of_mem _ (ih (n + 1) _ hc' ha)
      · exact absurd rfl ‹¬true = true›

end Loops

/-- `check_timeouts` on an uncompleted state and an id that is not acked: the id is queued if
    it was or its deadline has passed, and keeps its deadline otherwise. -/
theorem checkStateTimeouts_unacked (now : ℚ) {st : SendState} (hc : st.completed = false)
    {c : Nat} (ha : c ∉ st.ackedChunks) :
    (c ∈ st.retransmitQueue ∨ (∃ t, st.chunkTimers.get? c = some t ∧ t ≤ now) →
      c ∈ (checkStateTimeouts cfg now st).retransmitQueue) ∧
    ∀ t, st.chunkTimers.get? c = some t → now < t →
      (checkStateTimeouts cfg now st).chunkTimers.get? c = some t := by
  have hget : (st.chunkTimers.filter fun c _ => c ∉ st.ackedChunks).get? c =
      st.chunkTimers.get? c := by
    cases h : st.chunkTimers.get? c <;> simp [h, ha]
  have hout : c ∈ ((st.chunkTimers.filter fun c _ => c ∉ st.ackedChunks).entries.filter
      fun e => e.2 ≤ now).map Prod.fst ↔ ∃ t, st.chunkTimers.get? c = some t ∧ t ≤ now := by
    simp [Dict.mem_entries, ha]
  unfold checkStateTimeouts
  rw [if_neg (by simp [hc])]
  dsimp only
  split
  · rename_i hnil
    rw [hnil] at hout
    exact ⟨fun h => h.resolve_right fun h' => List.not_mem_nil c (hout.mpr h'),
      fun t ht _ => by rw [hget, ht]⟩
  · refine ⟨fun h => List.mem_append.mpr (h.imp id hout.mpr), fun t ht hlt => ?_⟩
    rw [Dict.get?_filter, hget, ht]
    simp only [Option.filter, decide_eq_true_eq, ite_eq_left_iff, reduceCtorEq, imp_false, not_not]
    intro hc'
    obtain ⟨t', ht', hle⟩ := hout.mp hc'
    rw [ht, Option.some.injEq] at ht'
    subst ht'
    exact absurd hle (not_le.mpr hlt)

/-- `check_timeouts` keeps every outstanding id tracked. -/
theorem Tracked.checkStateTimeouts {st : SendState} (h : Tracked st) (now : ℚ) :
    Tracked (checkStateTimeouts cfg now st) := fun c hc => by
  have hk := checkStateTimeouts_keeps cfg now st
  have ho : Outstanding st c := by
    rwa [Outstanding, ← hk.windowStart, ← hk.windowEnd, ← hk.acked]
  cases hcomp : st.completed
  · obtain ⟨hq, ht⟩ := checkStateTimeouts_unacked cfg now hcomp ho.2.2
    rcases h c ho with hs | hs
    · obtain ⟨t, ht'⟩ := Option.isSome_iff_exists.mp hs
      rcases le_or_lt t now with hle | hlt
      · exact Or.inr (hq (Or.inr ⟨t, ht', hle⟩))
      · exact Or.inl (by rw [ht t ht' hlt]; rfl)
    · exact Or.inr (hq (Or.inl hs))
  · rw [SendEngine.checkStateTimeouts, if_pos hcomp] at hc ⊢
    exact h c hc

/-- `handle_sack`'s update keeps every outstanding id tracked when the window end does not
    grow: the window only shrinks from below, and only newly acked ids lose their deadlines. -/
theorem Tracked.sackState {st : SendState} (h : Tracked st) (now : ℚ) (acked : Finset Nat)
    (hle : (sackState cfg now st acked).windowEnd ≤ st.windowEnd) :
    Tracked (sackState cfg now st acked) := fun c ⟨h1, h2, h3⟩ => by
  obtain ⟨s1, -, -, s4, -, s6⟩ := sackState_spec cfg now st acked
  rw [s1, Finset.mem_union, not_or] at h3
  have hws := le_advanceWindowStart (st.ackedChunks ∪ acked) st.totalChunks st.windowStart
  rw [← s4] at hws
  rw [s6, if_neg fun h' => h3.2 (Finset.mem_sdiff.mp h').1, (sackState_queue cfg now st acked).1]
  exact h c ⟨hws.trans h1, lt_of_lt_of_le h2 hle, h3.1⟩

/-- `_send_window` tracks every outstanding id of a window it has chunks for, whatever the state
    held before. -/
theorem tracked_sendWindowLoop (chunks : Dict Nat ChunkRecord) (now : ℚ) (n : Nat)
    (st : SendState) (hd : ∀ c, st.windowStart ≤ c → c < st.windowEnd → (chunks.get? c).isSome) :
    Tracked (sendWindowLoop chunks now (fun _ => true)
      (List.range' st.windowStart (st.windowEnd - st.windowStart)) n st).1 := fun c hc => by
  have hk := sendWindowLoop_keeps chunks now (fun _ => true)
    (List.range' st.windowStart (st.windowEnd - st.windowStart)) n st
  obtain ⟨h1, h2, h3⟩ := hc
  rw [hk.windowStart] at h1
  rw [hk.windowEnd] at h2
  rw [hk.acked] at h3
  exact Or.inl (isSome_sendWindowLoop_of_mem chunks now _ n st
    (List.mem_range'_1.mpr ⟨h1, by omega⟩) h3 (hd c h1 h2))

/-- `retransmit_chunks` keeps every outstanding id tracked when it has chunks for its queue: each
    queued id gets a new deadline. -/
theorem Tracked.retransmitLoop {st : SendState} (h : Tracked st) (chunks : Dict Nat ChunkRecord)
    (now : ℚ) (hd : ∀ c ∈ st.retransmitQueue, (chunks.get? c).isSome) :
    Tracked (retransmitLoop chunks now (fun _ => true) st.retransmitQueue 0
      { st with retransmitQueue := [] }).1 := fun c hc => by
  have hk := retransmitLoop_keeps chunks now (fun _ => true) st.retransmitQueue 0
    { st with retransmitQueue := [] }
  obtain ⟨h1, h2, h3⟩ := hc
  rw [hk.windowStart] at h1
  rw [hk.windowEnd] at h2
  rw [hk.acked] at h3
  rcases h c ⟨h1, h2, h3⟩ with ht | hq
  · exact Or.inl (isSome_retransmitLoop chunks now _ _ 0 _ ht)
  · exact Or.inl (isSome_retransmitLoop_of_mem chunks now _ 0 _ hq h3 (hd c hq))

/-! ## Engines that resend -/

/-- What an uncompleted state `st` of bundle `x` needs to send its chunks again: `x` registered,
    a `chunks` row under each id below its chunk count, and a chunk under each in `x`'s cache
    entry, if it has one. -/
structure Supplies (reg : String → Prop) (eng : SendEngine) (x : String) (st : SendState) :
    Prop where
  reg : reg x
  store : ∀ c < st.totalChunks, (eng.store.chunks.get? (x, c)).isSome
  cache : ∀ d, eng.chunkCache.get? x = some d → ∀ c < st.totalChunks, (d.get? c).isSome

/-- Every uncompleted state is supplied and tracked. -/
def Minded (reg : String → Prop) (eng : SendEngine) : Prop :=
  ∀ x st, eng.activeSends.get? x = some st → st.completed = false →
    Supplies reg eng x st ∧ Tracked st

/-- Every uncompleted state is supplied, and tracked unless it is `y`'s: what holds between
    `handle_sack`'s update of `y`'s window and its call to `_send_window`. -/
def MindedBut (reg : String → Prop) (eng : SendEngine) (y : String) : Prop :=
  ∀ x st, eng.activeSends.get? x = some st → st.completed = false →
    Supplies reg eng x st ∧ (x ≠ y → Tracked st)

/-- A tidy engine whose uncompleted states are supplied and tracked. -/
structure Resends (reg : String → Prop) (eng : SendEngine) : Prop where
  tidy : Tidy eng
  minded : Minded reg eng

theorem Minded.but {reg : String → Prop} {eng : SendEngine} (h : Minded reg eng) (y : String) :
    MindedBut reg eng y := fun x st hx hc =>
  ⟨(h x st hx hc).1, fun _ => (h x st hx hc).2⟩

/-- Where `y` has no uncompleted state, minded but for `y` is minded. -/
theorem MindedBut.minded {reg : String → Prop} {eng : SendEngine} {y : String}
    (h : MindedBut reg eng y) (hy : ∀ st, eng.activeSends.get? y = some st → st.completed = true) :
    Minded reg eng := fun x st hx hc =>
  ⟨(h x st hx hc).1, (h x st hx hc).2 fun he => by
    rw [hy st (he ▸ hx)] at hc
    cases hc⟩

/-- A state stays supplied through a change that keeps its chunk count, its rows and its cache
    entry. -/
theorem Supplies.mono {reg : String → Prop} {eng eng' : SendEngine} {x : String}
    {st st' : SendState} (h : Supplies reg eng x st) (ht : st'.totalChunks = st.totalChunks)
    (hs : ∀ c, (eng.store.chunks.get? (x, c)).isSome → (eng'.store.chunks.get? (x, c)).isSome)
    (hc : ∀ d, eng'.chunkCache.get? x = some d → eng.chunkCache.get? x = some d) :
    Supplies reg eng' x st' :=
  ⟨h.reg, fun c hc' => hs c (h.store c (ht ▸ hc')),
    fun d hd c hc' => h.cache d (hc d hd) c (ht ▸ hc')⟩

/-- The dictionary `_send_window` reads, and the cache entry it leaves, hold a chunk under every
    id of a supplied state. -/
theorem Supplies.windowChunks {reg : String → Prop} {eng : SendEngine} {x : String}
    {st : SendState} (h : Supplies reg eng x st) (hkey : StoreKeyed eng.store) {c : Nat}
    (hc : c < st.totalChunks) :
    ((eng.windowChunks x).2.get? c).isSome ∧
      ∀ d, (eng.windowChunks x).1.get? x = some d → (d.get? c).isSome := by
  have hload := hkey.isSome_load (h.store c hc)
  have hins : ∀ d, (eng.chunkCache.insert x (chunkDict (eng.store.loadChunksForBundle x))).get? x
      = some d → (d.get? c).isSome := fun d hd => by
    rw [Dict.get?_insert, if_pos rfl, Option.some.injEq] at hd
    rw [← hd]
    exact hload
  unfold SendEngine.windowChunks
  split
  · rename_i d hd
    split
    · exact ⟨hload, hins⟩
    · exact ⟨h.cache d hd c hc, fun d' hd' => h.cache d' hd' c hc⟩
  · exact ⟨hload, hins⟩

/-- `_send_window` of `x` touches no other cache entry. -/
theorem windowChunks_get?_ne (eng : SendEngine) {x x' : String} (hx : x' ≠ x) :
    (eng.windowChunks x).1.get? x' = eng.chunkCache.get? x' := by
  unfold SendEngine.windowChunks
  split
  · split
    · rw [Dict.get?_insert, if_neg hx]
    · rfl
  · rw [Dict.get?_insert, if_neg hx]

/-- `_send_window` of `y` over an engine whose uncompleted states are supplied, and tracked but
    for `y`'s: every uncompleted state comes out supplied and tracked, `y`'s since the loop arms
    every outstanding id of its window. -/
theorem minded_sendWindow {reg : String → Prop} {eng : SendEngine} {y : String}
    (h : MindedBut reg eng y) (hkey : StoreKeyed eng.store)
    (hend : ∀ st, eng.activeSends.get? y = some st → st.windowEnd ≤ st.totalChunks) (now : ℚ) :
    Minded reg (sendWindow eng y now fun _ => true).1 := by
  unfold sendWindow
  split
  · rename_i hnone
    exact h.minded fun _ hst => absurd (hnone.symm.trans hst) (by simp)
  · rename_i st hget
    intro x sx hx hc
    simp only [Dict.get?_insert] at hx
    split at hx
    · rename_i hxy
      subst hxy
      cases hx
      have hk := sendWindowLoop_keeps (eng.windowChunks x).2 now (fun _ => true)
        (List.range' st.windowStart (st.windowEnd - st.windowStart)) 0 st
      have hs := (h x st hget (by rwa [(sendWindowLoop_arms _ _ _ _ _ st).completed] at hc)).1
      refine ⟨⟨hs.reg, fun c hc' => hs.store c (hk.totalChunks ▸ hc'), fun d hd c hc' =>
        (hs.windowChunks hkey (hk.totalChunks ▸ hc')).2 d (by simpa using hd)⟩,
        tracked_sendWindowLoop _ now 0 st fun c _ hc' =>
          (hs.windowChunks hkey (lt_of_lt_of_le hc' (hend st hget))).1⟩
    · rename_i hxy
      obtain ⟨hs, ht⟩ := h x sx hx hc
      exact ⟨hs.mono rfl (fun _ => id) fun d hd => by
        rwa [windowChunks_get?_ne eng hxy] at hd, ht hxy⟩

/-- `_complete_transfer(y)` completes `y`'s state and leaves the other states, the rows and the
    other cache entries. -/
theorem minded_completeTransfer {reg : String → Prop} {eng : SendEngine} {y : String}
    (h : MindedBut reg eng y) : Minded reg (completeTransfer eng y) := by
  unfold SendEngine.completeTransfer
  split
  · rename_i hnone
    exact h.minded fun _ hst => absurd (hnone.symm.trans hst) (by simp)
  · rename_i st hget
    split
    · rename_i hdone
      exact h.minded fun st' hst' => by
        rw [hget, Option.some.injEq] at hst'
        rw [← hst']
        exact hdone
    · intro x sx hx hc
      simp only [Dict.get?_insert] at hx
      split at hx
      · cases hx
        cases hc
      · rename_i hxy
        obtain ⟨hs, ht⟩ := h x sx hx hc
        exact ⟨hs.mono rfl (fun _ => id) fun d hd => by
          rwa [Dict.get?_erase, if_neg hxy] at hd, ht hxy⟩

/-! ## Every call of a reliable run keeps the engine resending -/

namespace Resends

variable {reg : String → Prop} {eng : SendEngine} (h : Resends reg eng)
include h

/-- Registering more bundles keeps an engine resending. -/
theorem mono {reg' : String → Prop} (hreg : ∀ x, reg x → reg' x) : Resends reg' eng :=
  ⟨h.tidy, fun x st hx hc =>
    let ⟨hs, ht⟩ := h.minded x st hx hc
    ⟨⟨hreg x hs.reg, hs.store, hs.cache⟩, ht⟩⟩

/-- A store change that keeps the `chunks` table, such as the custody manager's, keeps an engine
    resending. -/
theorem withStore (store : Store) (hs : store.chunks = eng.store.chunks) :
    Resends reg { eng with store } :=
  ⟨⟨h.tidy.cache, fun key ch hk => h.tidy.store key ch (by rwa [hs] at hk), h.tidy.states⟩,
    fun x st hx hc =>
      let ⟨s, t⟩ := h.minded x st hx hc
      ⟨s.mono rfl (fun c hc' => by rwa [hs]) fun _ => id, t⟩⟩

/-- `send_file` of a registered bundle, every send succeeding: its rows and cache entry hold its
    chunks, and its first window is armed. -/
theorem sendFile (fec : FECConfig) (srcNodeId : String) {filePath destination y : String}
    {fileData : Bytes} {fecEnabled : Bool} {now : ℚ} {r : SendEngine × List Message}
    (hr : SendEngine.sendFile cfg fec srcNodeId eng filePath fileData destination fecEnabled y now
      (fun _ => true) = some r) (hy : reg y) :
    Resends reg r.1 := by
  refine ⟨(h.tidy.sendFile cfg fec srcNodeId hr).1, ?_⟩
  obtain ⟨chunks, row, hcc, -, rfl⟩ := sendFile_eq_some cfg hr
  have hcs : 0 < cfg.chunkSize := Nat.pos_of_ne_zero fun h0 => by simp [createChunks, h0] at hcc
  have hids := (ids_createChunks cfg fec fileData y _ hcs hcc).1
  have hb := bundleId_of_mem_createChunks cfg fec hcc
  -- every id below the chunk count is a chunk's
  have hch : ∀ c < chunks.length, ∃ ch ∈ chunks, ch.chunkId = c := fun c hc => by
    have : c ∈ chunks.map ChunkRecord.chunkId := by rw [hids]; exact List.mem_range.mpr hc
    simpa using this
  refine minded_sendWindow (fun x sx hx hc => ?_)
    ((h.tidy.store.saveBundle _ _).foldl_saveChunk _) (fun st hst => ?_) now
  · rw [Dict.get?_insert] at hx
    split at hx
    · rename_i hxy
      subst hxy
      cases hx
      refine ⟨⟨hy, fun c hc => ?_, fun d hd c hc => ?_⟩, fun hne => absurd rfl hne⟩
      · obtain ⟨ch, hm, rfl⟩ := hch c hc
        exact (Store.isSome_foldl_saveChunk _ _ _).mpr (Or.inr ⟨ch, hm, by rw [hb ch hm]⟩)
      · rw [Dict.get?_insert, if_pos rfl, Option.some.injEq] at hd
        rw [← hd]
        obtain ⟨ch, hm, rfl⟩ := hch c hc
        exact isSome_get?_chunkDict hm
    · rename_i hxy
      obtain ⟨hs, ht⟩ := h.minded x sx hx hc
      exact ⟨hs.mono rfl (fun c hc' => (Store.isSome_foldl_saveChunk _ _ _).mpr (Or.inl hc'))
        fun d hd => by rwa [Dict.get?_insert, if_neg hxy] at hd, fun _ => ht⟩
  · simp only [Dict.get?_insert, if_pos, Option.some.injEq] at hst
    rw [← hst]
    exact Nat.min_le_right _ _

/-- `handle_sack`, every send succeeding. -/
theorem handleSack (y : String) (acked : Finset Nat) (now nowSend : ℚ) :
    Resends reg (handleSack cfg eng y acked now nowSend fun _ => true).1 := by
  refine ⟨(h.tidy.handleSack cfg y acked now nowSend _).1, ?_⟩
  unfold SendEngine.handleSack
  split
  · exact h.minded
  · rename_i st hget
    have s2 := (sackState_spec cfg now st acked).2.1
    have hq := sackState_queue cfg now st acked
    have hT := (h.tidy.states y st hget).sackState cfg now acked
    have htr := fun hc => (h.minded y st hget hc).2.sackState cfg now acked
    set st' := sackState cfg now st acked
    -- with `y`'s state updated, every uncompleted state is supplied, and tracked but `y`'s
    have h₁ : MindedBut reg { eng with activeSends := eng.activeSends.insert y st' } y :=
        fun x sx hx hc => by
      simp only [Dict.get?_insert] at hx
      split at hx
      · rename_i hxy
        subst hxy
        cases hx
        exact ⟨((h.minded x st hget (by rwa [hq.2] at hc)).1).mono s2 (fun _ => id)
          fun _ => id, fun hne => absurd rfl hne⟩
      · obtain ⟨hs, ht⟩ := h.minded x sx hx hc
        exact ⟨hs.mono rfl (fun _ => id) fun _ => id, fun _ => ht⟩
    dsimp only
    split
    · exact minded_completeTransfer h₁
    · split
      · refine minded_sendWindow h₁ h.tidy.store (fun sx hx => ?_) nowSend
        simp only [Dict.get?_insert, if_pos, Option.some.injEq] at hx
        rw [← hx, hT.windowEnd_eq]
        exact Nat.min_le_right _ _
      · rename_i hle
        intro x sx hx hc
        refine ⟨(h₁ x sx hx hc).1, fun c hc' => ?_⟩
        by_cases hxy : x = y
        · subst hxy
          simp only [Dict.get?_insert, if_pos, Option.some.injEq] at hx
          subst hx
          exact htr (by rwa [hq.2] at hc) (not_lt.mp hle) c hc'
        · exact (h₁ x sx hx hc).2 hxy c hc'

/-- `handle_delivered`. -/
theorem handleDelivered (y : String) : Resends reg (handleDelivered eng y) := by
  refine ⟨h.tidy.handleDelivered y, ?_⟩
  unfold SendEngine.handleDelivered
  split
  · exact minded_completeTransfer (h.minded.but y)
  · exact h.minded

/-- `check_timeouts`. -/
theorem checkTimeouts (now : ℚ) : Resends reg (checkTimeouts cfg eng now) :=
  ⟨h.tidy.checkTimeouts cfg now, fun x st' hx hc => by
    simp only [SendEngine.checkTimeouts, Dict.get?_mapVal, Option.map_eq_some'] at hx
    obtain ⟨st, hget, rfl⟩ := hx
    obtain ⟨hs, ht⟩ := h.minded x st hget (by rwa [checkStateTimeouts_completed] at hc)
    exact ⟨hs.mono (checkStateTimeouts_keeps cfg now st).totalChunks (fun _ => id) fun _ => id,
      ht.checkStateTimeouts cfg now⟩⟩

/-- `retransmit_chunks`, every send succeeding. -/
theorem retransmitChunks (y : String) (now : ℚ) :
    Resends reg (retransmitChunks eng y now fun _ => true).1 := by
  refine ⟨(h.tidy.retransmitChunks y now _).1, ?_⟩
  unfold SendEngine.retransmitChunks
  split
  · exact h.minded
  · rename_i st hget
    split
    · exact h.minded
    · rename_i hc₀
      intro x sx hx hc
      simp only [Dict.get?_insert] at hx
      split at hx
      · rename_i hxy
        subst hxy
        cases hx
        have hk := (⟨rfl, rfl, rfl, rfl, rfl, fun _ _ h => h⟩ :
          KeepsWindow st { st with retransmitQueue := [] }).trans
          (retransmitLoop_keeps (chunkDict (eng.store.loadChunksForBundle x)) now (fun _ => true)
            st.retransmitQueue 0 _)
        obtain ⟨hs, ht⟩ := h.minded x st hget (by simpa using hc₀)
        have hT := h.tidy.states x st hget
        refine ⟨hs.mono hk.totalChunks (fun _ => id) fun _ => id,
          ht.retransmitLoop _ now fun c hq => h.tidy.store.isSome_load (hs.store c ?_)⟩
        have := hT.queue c hq
        have := hT.windowEnd_eq
        omega
      · obtain ⟨hs, ht⟩ := h.minded x sx hx hc
        exact ⟨hs.mono rfl (fun _ => id) fun _ => id, ht⟩

end Resends

/-! ## What a tick sends -/

/-- `retransmit_chunks` of `y` touches no other state. -/
theorem retransmitChunks_get?_ne (eng : SendEngine) {y x : String} (hx : x ≠ y) (now : ℚ)
    (ok : Nat → Bool) :
    (retransmitChunks eng y now ok).1.activeSends.get? x = eng.activeSends.get? x := by
  unfold retransmitChunks
  split
  · rfl
  · split
    · rfl
    · simp [Dict.get?_insert, hx]

/-- `retransmit_chunks` of `x` sends every queued id of `x`'s uncompleted state that is not
    acked and has a row. -/
theorem mem_retransmitChunks {eng : SendEngine} {x : String} {st : SendState}
    (hget : eng.activeSends.get? x = some st) (hc : st.completed = false) {c : Nat}
    (hq : c ∈ st.retransmitQueue) (ha : c ∉ st.ackedChunks) {ch : ChunkRecord}
    (hd : (chunkDict (eng.store.loadChunksForBundle x)).get? c = some ch) (now : ℚ) :
    chunkMsg st.totalChunks ch ∈ (retransmitChunks eng x now fun _ => true).2 := by
  unfold retransmitChunks
  rw [hget]
  dsimp only
  rw [if_neg (by simp [hc])]
  exact mem_retransmitLoop _ now _ 0 { st with retransmitQueue := [] } hq ha hd

/-- The loop of a tick over the registered bundles sends what `retransmit_chunks` of `x` sends
    from `x`'s state and store, when the passes before `x`'s leave them. -/
theorem mem_foldl_retransmitChunks (now : ℚ)
    (F : SendEngine × List Message → String → SendEngine × List Message)
    (hF : ∀ r b, (F r b).1 = (retransmitChunks r.1 b now fun _ => true).1 ∧
      (F r b).2 = r.2 ++ (retransmitChunks r.1 b now fun _ => true).2)
    {x : String} {st : SendState} {store : Store} {m : Message}
    (hm : ∀ e : SendEngine, e.activeSends.get? x = some st → e.store = store →
      m ∈ (retransmitChunks e x now fun _ => true).2) :
    ∀ (ks : List String) (r : SendEngine × List Message),
      (x ∈ ks ∧ r.1.activeSends.get? x = some st ∧ r.1.store = store) ∨ m ∈ r.2 →
        m ∈ (ks.foldl F r).2
  | [], _, h => h.resolve_left fun h' => List.not_mem_nil x h'.1
  | k :: ks, r, h => by
    refine mem_foldl_retransmitChunks now F hF hm ks (F r k) ?_
    rw [(hF r k).1, (hF r k).2, List.mem_append]
    rcases h with ⟨hx, hget, hs⟩ | h
    · by_cases hxk : x = k
      · subst hxk
        exact Or.inr (Or.inr (hm r.1 hget hs))
      · refine Or.inl ⟨(List.mem_cons.mp hx).resolve_left hxk, ?_, ?_⟩
        · rw [retransmitChunks_get?_ne _ hxk]; exact hget
        · rw [store_retransmitChunks]; exact hs
    · exact Or.inr (Or.inl h)

end SendEngine

/-- `check_retry_timers` leaves the `chunks` table. -/
theorem CustodyManager.chunks_checkRetryTimers (ccfg : CustodyConfig) (m : CustodyManager)
    (now : ℚ) : (CustodyManager.checkRetryTimers ccfg m now).store.chunks = m.store.chunks := by
  unfold CustodyManager.checkRetryTimers
  generalize m.activeRecords.entries = es
  induction es generalizing m with
  | nil => rfl
  | cons e es ih =>
    rw [List.foldl_cons, ih]
    rcases CustodyManager.retryRecord_spec ccfg now m e.2 with ⟨he, -⟩ | ⟨he, -⟩ | ⟨he, -⟩ <;>
      rw [he] <;> rfl

/-- The custody manager's `handle_delivered` leaves the `chunks` table. -/
theorem CustodyManager.chunks_handleDelivered (m : CustodyManager) (b : String) :
    (CustodyManager.handleDelivered m b).store.chunks = m.store.chunks := by
  rcases CustodyManager.handleDelivered_cases m b with he | ⟨_, -, -, he⟩ <;> rw [he]; rfl

/-- A call of a run in which the node never restarts and every `network_send` succeeds:
    `send_file`, a SACK, a DELIVERED message or a tick. -/
def NodeOp.Reliable : NodeOp → Prop
  | .sendFile _ _ _ _ _ _ _ ok | .handleSack _ _ _ _ ok => ∀ i, ok i = true
  | .handleDelivered _ => True
  | .checkTimeouts _ _ ok => ∀ b i, ok b i = true
  | _ => False

namespace Node

open SendEngine

variable (cfg : TransferConfig) (fec : FECConfig) (nodeId : String)

/-- A node's engine resends, with the bundles registered those that have a destination. -/
def Redrives (n : Node) : Prop :=
  Resends (fun x => (n.sendDestinations.get? x).isSome) n.sendEngine

/-- A fresh node. -/
theorem redrives_fresh : Redrives ({} : Node) :=
  ⟨tidy_fresh Store.empty fun _ _ h => by simp [Store.empty] at h, fun _ _ h => by simp at h⟩

/-- Every call of a reliable run keeps a node's engine resending. -/
theorem Redrives.step {n : Node} (h : Redrives n) {op : NodeOp} (hop : op.Reliable) :
    Redrives (step cfg fec nodeId n op).1 := by
  cases op with
  | sendFile filePath fileData destinationNode destAddr fecEnabled bundleId now ok =>
    obtain rfl : ok = fun _ => true := funext hop
    show Redrives (sendFile cfg fec nodeId n filePath fileData destinationNode destAddr fecEnabled
      bundleId now _).1
    unfold Node.sendFile
    split
    · rename_i eng msgs hr
      exact (h.mono fun x hx => Dict.isSome_get?_insert_of_isSome hx).sendFile cfg fec nodeId hr
        (by simp [Dict.get?_insert])
    · exact h
  | handleSack bundleId acked now nowSend ok =>
    obtain rfl : ok = fun _ => true := funext hop
    exact h.handleSack cfg bundleId acked now nowSend
  | handleDelivered bundleId =>
    exact (h.handleDelivered bundleId).withStore _ (CustodyManager.chunks_handleDelivered _ _)
  | checkTimeouts now nowRetransmit ok =>
    obtain rfl : ok = fun _ _ => true := funext fun b => funext (hop b)
    refine Resends.withStore ?_ _ (CustodyManager.chunks_checkRetryTimers _ _ _)
    have h₀ : Resends _ (SendEngine.checkTimeouts cfg n.sendEngine now, ([] : List Message)).1 :=
      h.checkTimeouts cfg now
    generalize (SendEngine.checkTimeouts cfg n.sendEngine now, ([] : List Message)) = r at h₀ ⊢
    generalize n.sendDestinations.keys = ks
    induction ks generalizing r with
    | nil => exact h₀
    | cons k ks ih => exact ih _ (h₀.retransmitChunks k nowRetransmit)
  | _ => exact hop.elim

/-- So does every reliable run. -/
theorem Redrives.run {n : Node} (h : Redrives n) (ops : List NodeOp)
    (hops : ∀ op ∈ ops, op.Reliable) : Redrives (run cfg fec nodeId n ops).1 := by
  induction ops generalizing n with
  | nil => exact h
  | cons op ops ih =>
    exact ih (h.step cfg fec nodeId (hops op (List.mem_cons_self _ _))) fun o ho =>
      hops o (List.mem_cons_of_mem _ ho)

/-- A tick sends again the DATA message of an outstanding id of an uncompleted state, once the
    id is queued or its deadline has passed. -/
theorem mem_checkTimeouts {n : Node} (h : Redrives n) {x : String} {st : SendState}
    (hget : n.sendEngine.activeSends.get? x = some st) (hc : st.completed = false) {c : Nat}
    (hout : Outstanding st c) (now now' : ℚ)
    (hdue : c ∈ st.retransmitQueue ∨ ∃ t, st.chunkTimers.get? c = some t ∧ t ≤ now) :
    ∃ ch : ChunkRecord, ch.bundleId = x ∧ ch.chunkId = c ∧
      chunkMsg st.totalChunks ch ∈ (checkTimeouts cfg n now now' fun _ _ => true).2 := by
  obtain ⟨hs, -⟩ := h.minded x st hget hc
  have hT := h.tidy.states x st hget
  obtain ⟨ch, hch⟩ := Option.isSome_iff_exists.mp (h.tidy.store.isSome_load (hs.store c (by
    have := hT.windowEnd_eq
    have := hout.2.1
    omega)))
  obtain ⟨hid, hb⟩ := h.tidy.store.keyedChunks_load x c ch hch
  refine ⟨ch, hb, hid, ?_⟩
  -- after `check_timeouts`, the id waits in the queue of `x`'s state
  have hk := checkStateTimeouts_keeps cfg now st
  have hq := (checkStateTimeouts_unacked cfg now hc hout.2.2).1 hdue
  have hc₁ : (checkStateTimeouts cfg now st).completed = false := by
    rw [checkStateTimeouts_completed]; exact hc
  have h₀ : (SendEngine.checkTimeouts cfg n.sendEngine now).activeSends.get? x =
      some (checkStateTimeouts cfg now st) := by
    simp [SendEngine.checkTimeouts, hget]
  unfold Node.checkTimeouts
  dsimp only
  refine mem_foldl_retransmitChunks now' _ ?_ (fun e he hst => ?_) _ _
    (Or.inl ⟨Dict.mem_keys.mpr hs.reg, h₀, rfl⟩)
  · exact fun _ _ => ⟨rfl, rfl⟩
  · rw [← hk.totalChunks]
    exact mem_retransmitChunks he hc₁ hq (by rw [hk.acked]; exact hout.2.2)
      (by rw [hst]; exact hch) now'

/-- In every run of a fresh node that never restarts and whose every `network_send` succeeds,
    every uncompleted `SendState` has a destination, every outstanding chunk id of its window
    has a deadline or is queued, and a tick at any time at or past that deadline, or at any time
    at all for a queued id, sends the chunk's DATA message again. -/
theorem outstanding_chunk_redriven (ops : List NodeOp) (hops : ∀ op ∈ ops, op.Reliable) :
    let n := (run cfg fec nodeId {} ops).1
    ∀ x st, n.sendEngine.activeSends.get? x = some st → st.completed = false →
      (n.sendDestinations.get? x).isSome ∧
      ∀ c, st.windowStart ≤ c → c < st.windowEnd → c ∉ st.ackedChunks →
        ((st.chunkTimers.get? c).isSome ∨ c ∈ st.retransmitQueue) ∧
        ∀ now now' : ℚ, (c ∈ st.retransmitQueue ∨ ∃ t, st.chunkTimers.get? c = some t ∧ t ≤ now) →
          ∃ ch : ChunkRecord, ch.bundleId = x ∧ ch.chunkId = c ∧
            chunkMsg st.totalChunks ch ∈ (checkTimeouts cfg n now now' fun _ _ => true).2 := by
  intro n x st hget hc
  have h : Redrives n := redrives_fresh.run cfg fec nodeId ops hops
  obtain ⟨hs, ht⟩ := h.minded x st hget hc
  exact ⟨hs.reg, fun c h₁ h₂ h₃ => ⟨ht c ⟨h₁, h₂, h₃⟩,
    mem_checkTimeouts cfg h hget hc ⟨h₁, h₂, h₃⟩⟩⟩

/-- The 1-byte file `07` in chunks of 1 byte, window 1, every send succeeding. -/
theorem outstanding_chunk_redriven_one_chunk :
    (∀ op ∈ [NodeOp.sendFile "f" [7] "B" "h:2" false "b" 0 fun _ => true], op.Reliable) ∧
    let n := (run { chunkSize := 1, windowSize := 1 } {} "A" {}
      [.sendFile "f" [7] "B" "h:2" false "b" 0 fun _ => true]).1
    ∀ x st, n.sendEngine.activeSends.get? x = some st → st.completed = false →
      (n.sendDestinations.get? x).isSome ∧
      ∀ c, st.windowStart ≤ c → c < st.windowEnd → c ∉ st.ackedChunks →
        ((st.chunkTimers.get? c).isSome ∨ c ∈ st.retransmitQueue) ∧
        ∀ now now' : ℚ, (c ∈ st.retransmitQueue ∨ ∃ t, st.chunkTimers.get? c = some t ∧ t ≤ now) →
          ∃ ch : ChunkRecord, ch.bundleId = x ∧ ch.chunkId = c ∧ chunkMsg st.totalChunks ch ∈
            (checkTimeouts { chunkSize := 1, windowSize := 1 } n now now' fun _ _ => true).2 :=
  have hops : ∀ op ∈ [NodeOp.sendFile "f" [7] "B" "h:2" false "b" 0 fun _ => true], op.Reliable :=
    fun op hop => by rw [List.mem_singleton.mp hop]; exact fun _ => rfl
  ⟨hops, outstanding_chunk_redriven _ {} "A" _ hops⟩

end Node

end Courier
