import Courier.SendInvariant

/-
  Courier: what the send path puts on the link.

  Every DATA message the sender builds comes from a chunk dictionary: the cache, refilled from
  the store, or, for a retransmission, the store itself. `KeyedChunks b d` says `d` holds every
  chunk under its own id and of bundle `b`; `chunkDict` builds such dictionaries, the store
  keeps every row under its own key (`StoreKeyed`), and so the cache stays keyed
  (`CacheKeyed`). Timers are armed, and chunks queued for retransmission, only below the window
  end (`IdsBelow`). `Tidy` collects these; every operation keeps it, and every message an
  operation sends is a DATA message of a bundle whose state, after the operation, has the
  message's chunk count and a window end above its chunk id (`SentBy`). Completion does not
  stop sending: a SACK that moves the window of a completed state goes through `_send_window`,
  which refills the bundle's cache (`sack_after_completion_refills_cache`).
-/

namespace Courier

/-- `d` holds every chunk under its own id, and every chunk is of bundle `b`. -/
def KeyedChunks (b : String) (d : Dict Nat ChunkRecord) : Prop :=
  ∀ c ch, d.get? c = some ch → ch.chunkId = c ∧ ch.bundleId = b

theorem mem_of_get?_chunkDict {l : List ChunkRecord} {c : Nat} {ch : ChunkRecord}
    (h : (chunkDict l).get? c = some ch) : ch ∈ l ∧ ch.chunkId = c := by
  suffices ∀ d : Dict Nat ChunkRecord,
      (l.foldl (fun d ch => d.insert ch.chunkId ch) d).get? c = some ch →
        d.get? c = some ch ∨ ch ∈ l ∧ ch.chunkId = c by
    simpa using this ∅ h
  clear h
  induction l with
  | nil => exact fun _ => Or.inl
  | cons x xs ih =>
    intro d hd
    rcases ih (d.insert x.chunkId x) hd with h' | ⟨hm, hc⟩
    · rw [Dict.get?_insert] at h'
      split at h'
      · cases h'; exact Or.inr ⟨List.mem_cons_self _ _, ‹c = _›.symm⟩
      · exact Or.inl h'
    · exact Or.inr ⟨List.mem_cons_of_mem _ hm, hc⟩

theorem keyedChunks_chunkDict {b : String} {l : List ChunkRecord}
    (h : ∀ ch ∈ l, ch.bundleId = b) : KeyedChunks b (chunkDict l) := fun _ _ hc =>
  let ⟨hm, hid⟩ := mem_of_get?_chunkDict hc
  ⟨hid, h _ hm⟩

/-- Every row of the `chunks` table sits under the key `(bundle_id, chunk_id)` it carries. -/
def StoreKeyed (st : Store) : Prop :=
  ∀ key ch, st.chunks.get? key = some ch → key = (ch.bundleId, ch.chunkId)

namespace StoreKeyed

variable {st : Store} (h : StoreKeyed st)
include h

theorem saveChunksBulk (chunks : List ChunkRecord) : StoreKeyed (st.saveChunksBulk chunks) := by
  suffices ∀ t : Dict (String × Nat) ChunkRecord,
      (∀ key ch, t.get? key = some ch → key = (ch.bundleId, ch.chunkId)) →
      ∀ key ch, (chunks.foldl (fun t c => (t.erase (c.bundleId, c.chunkId)).insert
        (c.bundleId, c.chunkId) c) t).get? key = some ch → key = (ch.bundleId, ch.chunkId) from
    this _ h
  induction chunks with
  | nil => exact fun _ ht => ht
  | cons c cs ih =>
    refine fun t ht => ih _ fun key ch hk => ?_
    simp only [Dict.get?_insert, Dict.get?_erase] at hk
    split at hk
    · cases hk; assumption
    · exact ht key ch hk

theorem saveChunk (chunk : ChunkRecord) : StoreKeyed (st.saveChunk chunk) :=
  h.saveChunksBulk [chunk]

theorem saveBundle (b : String) (row : BundleRow) : StoreKeyed (st.saveBundle b row) := h

omit h in
theorem foldl_saveChunk {st : Store} (h : StoreKeyed st) (chunks : List ChunkRecord) :
    StoreKeyed (chunks.foldl Store.saveChunk st) := by
  induction chunks generalizing st with
  | nil => exact h
  | cons c cs ih => exact ih (h.saveChunk c)

theorem updateBundleState (b s : String) : StoreKeyed (st.updateBundleState b s) := h

theorem updateBundleStats (b : String) (x y : Nat) : StoreKeyed (st.updateBundleStats b x y) := h

theorem bundleId_of_mem_load {b : String} {ch : ChunkRecord}
    (hm : ch ∈ st.loadChunksForBundle b) : ch.bundleId = b := by
  simp only [Store.loadChunksForBundle, List.mem_insertionSort, List.mem_map, List.mem_filter,
    decide_eq_true_eq] at hm
  obtain ⟨⟨⟨b', c⟩, ch'⟩, ⟨he, rfl⟩, rfl⟩ := hm
  have := h _ _ (Dict.mem_entries.mp he)
  simp only [Prod.mk.injEq] at this
  exact this.1.symm

theorem keyedChunks_load (b : String) : KeyedChunks b (chunkDict (st.loadChunksForBundle b)) :=
  keyedChunks_chunkDict fun _ => h.bundleId_of_mem_load

end StoreKeyed

namespace SendEngine

/-! ## The sending loops -/

/-- What a sending loop over the ids `cs` does besides the window: the queue, the completion
    flag and the timeout stay, and a timer is armed only for an id of `cs`. -/
structure Arms (cs : List Nat) (st st' : SendState) : Prop where
  queue : st'.retransmitQueue = st.retransmitQueue
  completed : st'.completed = st.completed
  timers : ∀ c, (st'.chunkTimers.get? c).isSome → (st.chunkTimers.get? c).isSome ∨ c ∈ cs
  timeout : st'.timeoutInterval = st.timeoutInterval

theorem Arms.refl (cs : List Nat) (st : SendState) : Arms cs st st :=
  ⟨rfl, rfl, fun _ h => Or.inl h, rfl⟩

theorem Arms.cons {c : Nat} {cs : List Nat} {st st₁ st₂ : SendState} (h₁ : Arms [c] st st₁)
    (h₂ : Arms cs st₁ st₂) : Arms (c :: cs) st st₂ :=
  ⟨h₂.queue.trans h₁.queue, h₂.completed.trans h₁.completed, fun d hd => by
    rcases h₂.timers d hd with h | h
    · rcases h₁.timers d h with h | h
      · exact Or.inl h
      · exact Or.inr (List.mem_cons.mpr (Or.inl (List.mem_singleton.mp h)))
    · exact Or.inr (List.mem_cons_of_mem _ h), h₂.timeout.trans h₁.timeout⟩

theorem Arms.tail {c : Nat} {cs : List Nat} {st st' : SendState} (h : Arms cs st st') :
    Arms (c :: cs) st st' :=
  (Arms.refl [c] st).cons h

theorem arms_insert {st : SendState} (c : Nat) (t : ℚ) {st' : SendState}
    (hq : st'.retransmitQueue = st.retransmitQueue) (hc : st'.completed = st.completed)
    (ht : st'.chunkTimers = st.chunkTimers.insert c t)
    (hi : st'.timeoutInterval = st.timeoutInterval) : Arms [c] st st' :=
  ⟨hq, hc, fun d hd => by
    rw [ht, Dict.get?_insert] at hd
    split at hd
    · exact Or.inr (List.mem_singleton.mpr ‹_›)
    · exact Or.inl hd, hi⟩

variable (chunks : Dict Nat ChunkRecord) (now : ℚ) (ok : Nat → Bool)

theorem sendWindowLoop_arms (cs : List Nat) (n : Nat) (st : SendState) :
    Arms cs st (sendWindowLoop chunks now ok cs n st).1 := by
  induction cs generalizing n st with
  | nil => exact Arms.refl [] st
  | cons c cs ih =>
    unfold sendWindowLoop
    split
    · exact (ih n st).tail
    · split
      · exact (ih n st).tail
      · split
        · exact (ih n st).tail
        · split
          · refine Arms.cons ?_ (ih (n + 1) _)
            exact arms_insert c _ rfl rfl rfl rfl
          · exact (ih _ st).tail

theorem retransmitLoop_arms (cs : List Nat) (n : Nat) (st : SendState) :
    Arms cs st (retransmitLoop chunks now ok cs n st).1 := by
  induction cs generalizing n st with
  | nil => exact Arms.refl [] st
  | cons c cs ih =>
    unfold retransmitLoop
    split
    · exact (ih n st).tail
    · split
      · exact (ih n st).tail
      · split
        · refine Arms.cons ?_ (ih (n + 1) _)
          exact arms_insert c _ rfl rfl rfl rfl
        · exact (ih _ st).tail

/-- A message a sending loop over `cs` sends: the DATA message of a chunk of `chunks` under an
    id of `cs`. -/
def LoopSent (cs : List Nat) (total : Nat) (m : Message) : Prop :=
  ∃ c ∈ cs, ∃ ch, chunks.get? c = some ch ∧ m = chunkMsg total ch

theorem LoopSent.tail {chunks : Dict Nat ChunkRecord} {c : Nat} {cs : List Nat} {total : Nat}
    {m : Message} (h : LoopSent chunks cs total m) : LoopSent chunks (c :: cs) total m :=
  let ⟨d, hd, ch, hch, hm⟩ := h
  ⟨d, List.mem_cons_of_mem _ hd, ch, hch, hm⟩

theorem sendWindowLoop_sent (cs : List Nat) (n : Nat) (st : SendState) :
    ∀ m ∈ (sendWindowLoop chunks now ok cs n st).2, LoopSent chunks cs st.totalChunks m := by
  induction cs generalizing n st with
  | nil => exact fun _ h => absurd h (List.not_mem_nil _)
  | cons c cs ih =>
    unfold sendWindowLoop
    split
    · exact fun m hm => (ih n st m hm).tail
    · split
      · exact fun m hm => (ih n st m hm).tail
      · split
        · exact fun m hm => (ih n st m hm).tail
        · rename_i ch hch
          split
          · rintro m (_ | ⟨_, hm⟩)
            · exact ⟨c, List.mem_cons_self _ _, ch, hch, rfl⟩
            · exact (ih (n + 1) _ m hm).tail
          · exact fun m hm => (ih _ st m hm).tail

theorem retransmitLoop_sent (cs : List Nat) (n : Nat) (st : SendState) :
    ∀ m ∈ (retransmitLoop chunks now ok cs n st).2, LoopSent chunks cs st.totalChunks m := by
  induction cs generalizing n st with
  | nil => exact fun _ h => absurd h (List.not_mem_nil _)
  | cons c cs ih =>
    unfold retransmitLoop
    split
    · exact fun m hm => (ih n st m hm).tail
    · split
      · exact fun m hm => (ih n st m hm).tail
      · rename_i ch hch
        split
        · rintro m (_ | ⟨_, hm⟩)
          · exact ⟨c, List.mem_cons_self _ _, ch, hch, rfl⟩
          · exact (ih (n + 1) _ m hm).tail
        · exact fun m hm => (ih _ st m hm).tail

/-! ## Taking in a SACK -/

variable (cfg : TransferConfig)

theorem ackChunk_queue (now : ℚ) (st : SendState) (c : Nat) :
    (ackChunk cfg now st c).retransmitQueue = st.retransmitQueue ∧
      (ackChunk cfg now st c).completed = st.completed := by
  unfold ackChunk updateRttEstimates
  split
  · split
    · split <;> exact ⟨rfl, rfl⟩
    · exact ⟨rfl, rfl⟩
  · exact ⟨rfl, rfl⟩

/-- `handle_sack`'s update of a state leaves its retransmission queue and completion flag. -/
theorem sackState_queue (now : ℚ) (st : SendState) (acked : Finset Nat) :
    (sackState cfg now st acked).retransmitQueue = st.retransmitQueue ∧
      (sackState cfg now st acked).completed = st.completed := by
  have key : ∀ (l : List Nat) (st : SendState),
      (l.foldl (ackChunk cfg now) st).retransmitQueue = st.retransmitQueue ∧
        (l.foldl (ackChunk cfg now) st).completed = st.completed := by
    intro l
    induction l with
    | nil => exact fun _ => ⟨rfl, rfl⟩
    | cons c cs ih =>
      intro st
      obtain ⟨h1, h2⟩ := ih (ackChunk cfg now st c)
      obtain ⟨h3, h4⟩ := ackChunk_queue cfg now st c
      exact ⟨h1.trans h3, h2.trans h4⟩
  obtain ⟨h1, h2⟩ := key (sortedIds (acked \ st.ackedChunks))
    { st with ackedChunks := st.ackedChunks ∪ acked }
  unfold sackState
  dsimp only
  split <;> exact ⟨h1, h2⟩

/-! ## Tidy engines -/

/-- A state arms timers and queues chunks only below its window end, which sits where its
    window start and size put it. -/
structure TidyState (st : SendState) : Prop where
  timers : ∀ c, (st.chunkTimers.get? c).isSome → c < st.windowEnd
  queue : ∀ c ∈ st.retransmitQueue, c < st.windowEnd
  windowEnd_eq : st.windowEnd = min (st.windowStart + st.windowSize) st.totalChunks

/-- The cache and the store hold chunks under their own keys, and every state is tidy. -/
structure Tidy (eng : SendEngine) : Prop where
  cache : ∀ b d, eng.chunkCache.get? b = some d → KeyedChunks b d
  store : StoreKeyed eng.store
  states : ∀ b st, eng.activeSends.get? b = some st → TidyState st

/-- A message sent by an operation that left the engine `eng`: a DATA message of a bundle
    whose state has the message's chunk count and a window end above the message's id. -/
def SentBy (eng : SendEngine) (m : Message) : Prop :=
  ∃ b st dm, eng.activeSends.get? b = some st ∧ m = .data dm ∧ dm.bundleId = b ∧
    dm.chunkId < st.windowEnd ∧ dm.totalChunks = st.totalChunks

theorem TidyState.loop {st st' : SendState} {cs : List Nat} (h : TidyState st)
    (hk : KeepsWindow st st') (ha : Arms cs st st') (hcs : ∀ c ∈ cs, c < st.windowEnd) :
    TidyState st' where
  timers c hc := hk.windowEnd ▸ (ha.timers c hc).elim (h.timers c) (hcs c)
  queue c hc := hk.windowEnd ▸ h.queue c (ha.queue ▸ hc)
  windowEnd_eq := by rw [hk.windowEnd, hk.windowStart, hk.windowSize, hk.totalChunks]; exact h.windowEnd_eq

theorem tidyState_fresh {st : SendState} (h1 : st.chunkTimers = ∅) (h2 : st.retransmitQueue = [])
    (h3 : st.windowStart = 0) (h4 : st.windowEnd = min st.windowSize st.totalChunks) :
    TidyState st :=
  ⟨fun c hc => by simp [h1] at hc, fun c hc => by simp [h2] at hc, by rw [h4, h3, Nat.zero_add]⟩

theorem range'_lt {ws we c : Nat} (hc : c ∈ List.range' ws (we - ws)) : c < we := by
  rw [List.mem_range'_1] at hc; omega

theorem sentBy_loop {eng : SendEngine} {b : String} {st st' : SendState}
    {chunks : Dict Nat ChunkRecord} {cs : List Nat} {m : Message}
    (hget : eng.activeSends.get? b = some st') (hk : KeepsWindow st st')
    (hkey : KeyedChunks b chunks) (hcs : ∀ c ∈ cs, c < st.windowEnd)
    (hm : LoopSent chunks cs st.totalChunks m) : SentBy eng m := by
  obtain ⟨c, hc, ch, hch, rfl⟩ := hm
  obtain ⟨hid, hb⟩ := hkey c ch hch
  exact ⟨b, st', _, hget, rfl, hb, by rw [hk.windowEnd, hid]; exact hcs c hc, hk.totalChunks.symm⟩

namespace Tidy

variable {eng : SendEngine} (h : Tidy eng)
include h

theorem insert {b : String} {st : SendState} (hst : TidyState st) :
    Tidy { eng with activeSends := eng.activeSends.insert b st } :=
  ⟨h.cache, h.store, fun x sx hx => by
    rw [Dict.get?_insert] at hx
    split at hx
    · cases hx; exact hst
    · exact h.states x sx hx⟩

theorem windowChunks (b : String) :
    (∀ x d, (eng.windowChunks b).1.get? x = some d → KeyedChunks x d) ∧
      KeyedChunks b (eng.windowChunks b).2 := by
  have hload := h.store.keyedChunks_load b
  have hins : ∀ x d, (eng.chunkCache.insert b (chunkDict (eng.store.loadChunksForBundle b))).get?
      x = some d → KeyedChunks x d := fun x d hx => by
    rw [Dict.get?_insert] at hx
    split at hx
    · cases hx; subst x; exact hload
    · exact h.cache x d hx
  unfold SendEngine.windowChunks
  split
  · split
    · exact ⟨hins, hload⟩
    · exact ⟨h.cache, h.cache b _ ‹_›⟩
  · exact ⟨hins, hload⟩

theorem sendWindow (b : String) (now : ℚ) (ok : Nat → Bool) :
    Tidy (sendWindow eng b now ok).1 ∧ ∀ m ∈ (sendWindow eng b now ok).2,
      SentBy (sendWindow eng b now ok).1 m := by
  unfold SendEngine.sendWindow
  split
  · exact ⟨h, fun _ hm => absurd hm (List.not_mem_nil _)⟩
  · rename_i st hget
    obtain ⟨hc, hkey⟩ := h.windowChunks b
    have hcs : ∀ c ∈ List.range' st.windowStart (st.windowEnd - st.windowStart),
        c < st.windowEnd := fun _ => range'_lt
    have hk := sendWindowLoop_keeps (eng.windowChunks b).2 now ok
      (List.range' st.windowStart (st.windowEnd - st.windowStart)) 0 st
    refine ⟨⟨hc, h.store, fun x sx hx => ?_⟩, fun m hm => sentBy_loop (by simp) hk hkey hcs
      (sendWindowLoop_sent _ _ _ _ _ _ m hm)⟩
    simp only [Dict.get?_insert] at hx
    split at hx
    · cases hx
      exact (h.states b st hget).loop hk (sendWindowLoop_arms _ _ _ _ _ _) hcs
    · exact h.states x sx hx

theorem completeTransfer (b : String) : Tidy (completeTransfer eng b) := by
  unfold SendEngine.completeTransfer
  split
  · exact h
  · rename_i st hget
    split
    · exact h
    · refine ⟨fun x d hx => ?_, ((h.store.updateBundleState _ _).updateBundleStats _ _ _),
        fun x sx hx => ?_⟩
      · rw [Dict.get?_erase] at hx
        split at hx
        · cases hx
        · exact h.cache x d hx
      · simp only [Dict.get?_insert] at hx
        split at hx
        · cases hx
          have t := h.states b st hget
          exact ⟨t.timers, t.queue, t.windowEnd_eq⟩
        · exact h.states x sx hx

theorem handleDelivered (b : String) : Tidy (handleDelivered eng b) := by
  unfold SendEngine.handleDelivered
  split
  · exact h.completeTransfer b
  · exact h

end Tidy

theorem TidyState.checkStateTimeouts {st : SendState} (h : TidyState st) (now : ℚ) :
    TidyState (checkStateTimeouts cfg now st) := by
  have hsub : ∀ c, ((st.chunkTimers.filter fun c _ => c ∉ st.ackedChunks).get? c).isSome →
      c < st.windowEnd := fun c hc =>
    h.timers c (Option.isSome_filter_of_isSome _ _ (by rwa [Dict.get?_filter] at hc))
  unfold SendEngine.checkStateTimeouts
  split
  · exact h
  · dsimp only
    split
    · exact ⟨hsub, h.queue, h.windowEnd_eq⟩
    · refine ⟨fun c hc => hsub c ?_, fun c hc => ?_, h.windowEnd_eq⟩
      · rw [Dict.get?_filter] at hc
        exact Option.isSome_filter_of_isSome _ _ hc
      · rcases List.mem_append.mp hc with hc | hc
        · exact h.queue c hc
        · simp only [List.mem_map, List.mem_filter] at hc
          obtain ⟨⟨c', t⟩, ⟨he, -⟩, rfl⟩ := hc
          exact hsub c' (by rw [Dict.mem_entries.mp he]; rfl)

namespace Tidy

variable {eng : SendEngine} (h : Tidy eng)
include h

theorem checkTimeouts (now : ℚ) : Tidy (checkTimeouts cfg eng now) :=
  ⟨h.cache, h.store, fun b st' hb => by
    simp only [SendEngine.checkTimeouts, Dict.get?_mapVal, Option.map_eq_some'] at hb
    obtain ⟨st, hget, rfl⟩ := hb
    exact (h.states b st hget).checkStateTimeouts cfg now⟩

theorem retransmitChunks (b : String) (now : ℚ) (ok : Nat → Bool) :
    Tidy (retransmitChunks eng b now ok).1 ∧ ∀ m ∈ (retransmitChunks eng b now ok).2,
      SentBy (retransmitChunks eng b now ok).1 m := by
  unfold SendEngine.retransmitChunks
  split
  · exact ⟨h, fun _ hm => absurd hm (List.not_mem_nil _)⟩
  · rename_i st hget
    split
    · exact ⟨h, fun _ hm => absurd hm (List.not_mem_nil _)⟩
    · have t := h.states b st hget
      let st₀ : SendState := { st with retransmitQueue := [] }
      have hk₀ : KeepsWindow st st₀ := ⟨rfl, rfl, rfl, rfl, rfl, fun _ _ h => h⟩
      have hk := hk₀.trans (retransmitLoop_keeps (chunkDict (eng.store.loadChunksForBundle b))
        now ok st.retransmitQueue 0 st₀)
      have ha := retransmitLoop_arms (chunkDict (eng.store.loadChunksForBundle b)) now ok
        st.retransmitQueue 0 st₀
      refine ⟨⟨h.cache, h.store, fun x sx hx => ?_⟩, fun m hm =>
        sentBy_loop (by simp) hk (h.store.keyedChunks_load b) t.queue
          (retransmitLoop_sent _ now ok _ 0 st₀ m hm)⟩
      simp only [Dict.get?_insert] at hx
      split at hx
      · cases hx
        refine ⟨fun c hc => ?_, fun c hc => ?_, ?_⟩
        · rw [hk.windowEnd]
          exact (ha.timers c hc).elim (t.timers c) (t.queue c)
        · rw [ha.queue] at hc; cases hc
        · rw [hk.windowEnd, hk.windowStart, hk.windowSize, hk.totalChunks]; exact t.windowEnd_eq
      · exact h.states x sx hx

end Tidy


theorem TidyState.sackState {st : SendState} (h : TidyState st) (now : ℚ) (acked : Finset Nat) :
    TidyState (SendEngine.sackState cfg now st acked) := by
  obtain ⟨-, s2, s3, s4, s5, s6⟩ := sackState_spec cfg now st acked
  have hgrow : st.windowEnd ≤ (SendEngine.sackState cfg now st acked).windowEnd := by
    have := le_advanceWindowStart (st.ackedChunks ∪ acked) st.totalChunks st.windowStart
    have := h.windowEnd_eq
    rw [s5, s4]; omega
  refine ⟨fun c hc => ?_, fun c hc => ?_, by rw [s5, s3, s2]⟩
  · rw [s6] at hc
    split at hc
    · cases hc
    · exact lt_of_lt_of_le (h.timers c hc) hgrow
  · rw [(sackState_queue cfg now st acked).1] at hc
    exact lt_of_lt_of_le (h.queue c hc) hgrow

theorem bundleId_of_mem_createChunks (fec : FECConfig) {fileData : Bytes} {b : String}
    {useFec : Bool} {chunks : List ChunkRecord} (hc : createChunks cfg fec fileData b useFec = some chunks) :
    ∀ ch ∈ chunks, ch.bundleId = b := by
  unfold createChunks at hc
  split at hc
  · cases hc
  · have hdata : ∀ ch ∈ (List.range ((fileData.length + cfg.chunkSize - 1) / cfg.chunkSize)).map
        (dataChunk cfg fec fileData b useFec), ch.bundleId = b :=
      List.forall_mem_map.mpr fun _ _ => rfl
    dsimp only at hc
    split at hc <;> cases hc
    · intro ch hch
      rcases List.mem_append.mp hch with hch | hch
      · exact hdata ch hch
      · unfold generateFecChunks at hch
        split at hch
        · cases hch
        · simp only [List.mem_flatMap, List.mem_map] at hch
          obtain ⟨_, -, _, -, rfl⟩ := hch
          rfl
    · exact hdata

theorem get?_resumeTransfers_eq (eng : SendEngine) (b : String) (st : SendState)
    (h : (resumeTransfers cfg eng).activeSends.get? b = some st) :
    (∃ row, st = resumedState cfg b row) ∨ eng.activeSends.get? b = some st := by
  unfold resumeTransfers at h
  generalize eng.store.listBundlesByState "sending" = rows at h
  generalize eng.activeSends = sends at h ⊢
  induction rows generalizing sends with
  | nil => exact Or.inr h
  | cons e rows ih =>
    rcases ih _ h with hrow | hget
    · exact Or.inl hrow
    · rw [Dict.get?_insert] at hget
      split at hget
      · cases hget; subst b; exact Or.inl ⟨e.2, rfl⟩
      · exact Or.inr hget

namespace Tidy

variable {eng : SendEngine} (h : Tidy eng)
include h

theorem handleSack (b : String) (acked : Finset Nat) (now nowSend : ℚ) (ok : Nat → Bool) :
    Tidy (handleSack cfg eng b acked now nowSend ok).1 ∧
      ∀ m ∈ (handleSack cfg eng b acked now nowSend ok).2,
        SentBy (handleSack cfg eng b acked now nowSend ok).1 m := by
  unfold SendEngine.handleSack
  split
  · exact ⟨h, fun _ hm => absurd hm (List.not_mem_nil _)⟩
  · rename_i st hget
    have h₁ : Tidy { eng with activeSends := eng.activeSends.insert b _ } :=
      h.insert ((h.states b st hget).sackState cfg now acked)
    dsimp only
    split
    · exact ⟨h₁.completeTransfer b, fun _ hm => absurd hm (List.not_mem_nil _)⟩
    · split
      · exact h₁.sendWindow b nowSend ok
      · exact ⟨h₁, fun _ hm => absurd hm (List.not_mem_nil _)⟩

/-- `send_file` calls `_send_window` on a tidy engine. -/
theorem sendFile_tidy (fec : FECConfig) (srcNodeId : String)
    {filePath destination bundleId : String} {fileData : Bytes} {fecEnabled : Bool} {now : ℚ}
    {ok : Nat → Bool} {r : SendEngine × List Message}
    (hr : sendFile cfg fec srcNodeId eng filePath fileData destination fecEnabled bundleId now ok =
      some r) :
    ∃ e, Tidy e ∧ r = SendEngine.sendWindow e bundleId now ok := by
  obtain ⟨chunks, row, hc, -, rfl⟩ := sendFile_eq_some cfg hr
  refine ⟨_, ⟨fun x d hx => ?_, (h.store.saveBundle _ _).foldl_saveChunk _, fun x sx hx => ?_⟩,
    rfl⟩
  · rw [Dict.get?_insert] at hx
    split at hx
    · cases hx; subst x
      exact keyedChunks_chunkDict (bundleId_of_mem_createChunks cfg fec hc)
    · exact h.cache x d hx
  · rw [Dict.get?_insert] at hx
    split at hx
    · cases hx; exact tidyState_fresh rfl rfl rfl rfl
    · exact h.states x sx hx

theorem sendFile (fec : FECConfig) (srcNodeId : String) {filePath destination bundleId : String}
    {fileData : Bytes} {fecEnabled : Bool} {now : ℚ} {ok : Nat → Bool}
    {r : SendEngine × List Message}
    (hr : sendFile cfg fec srcNodeId eng filePath fileData destination fecEnabled bundleId now ok =
      some r) :
    Tidy r.1 ∧ ∀ m ∈ r.2, SentBy r.1 m := by
  obtain ⟨e, he, rfl⟩ := h.sendFile_tidy cfg fec srcNodeId hr
  exact he.sendWindow _ _ _

theorem resumeTransfers : Tidy (resumeTransfers cfg eng) :=
  ⟨h.cache, h.store, fun b st hb => by
    rcases get?_resumeTransfers_eq cfg eng b st hb with ⟨row, rfl⟩ | hget
    · exact tidyState_fresh rfl rfl rfl rfl
    · exact h.states b st hget⟩

theorem cleanupCompletedTransfers : Tidy (cleanupCompletedTransfers eng) :=
  ⟨h.cache, h.store, fun b st hb => by
    simp only [SendEngine.cleanupCompletedTransfers, Dict.get?_filter,
      Option.filter_eq_some] at hb
    exact h.states b st hb.1⟩

end Tidy

/-! ## Operations that keep the window and the completion flag -/

/-- An engine change that keeps every state's window and completion flag and drops none. -/
structure Calm (eng eng' : SendEngine) : Prop where
  states : ∀ x st', eng'.activeSends.get? x = some st' →
    ∃ st, eng.activeSends.get? x = some st ∧ KeepsWindow st st' ∧ st'.completed = st.completed
  isSome : ∀ x, (eng.activeSends.get? x).isSome → (eng'.activeSends.get? x).isSome

theorem Calm.trans {e₁ e₂ e₃ : SendEngine} (h₁ : Calm e₁ e₂) (h₂ : Calm e₂ e₃) : Calm e₁ e₃ :=
  ⟨fun x st₃ h => by
    obtain ⟨st₂, h₂', k₂, c₂⟩ := h₂.states x st₃ h
    obtain ⟨st₁, h₁', k₁, c₁⟩ := h₁.states x st₂ h₂'
    exact ⟨st₁, h₁', k₁.trans k₂, c₂.trans c₁⟩, fun x h => h₂.isSome x (h₁.isSome x h)⟩

theorem calm_insert {eng eng' : SendEngine} {b : String} {st st' : SendState}
    (hget : eng.activeSends.get? b = some st) (hk : KeepsWindow st st')
    (hc : st'.completed = st.completed) (h : eng'.activeSends = eng.activeSends.insert b st') :
    Calm eng eng' :=
  ⟨fun x sx hx => by
    rw [h, Dict.get?_insert] at hx
    split at hx
    · subst x; cases hx; exact ⟨st, hget, hk, hc⟩
    · exact ⟨sx, hx, KeepsWindow.refl sx, rfl⟩,
   fun x hx => by
    rw [h, Dict.get?_insert]
    split
    · rfl
    · exact hx⟩

theorem calm_sendWindow (eng : SendEngine) (b : String) (now : ℚ) (ok : Nat → Bool) :
    Calm eng (sendWindow eng b now ok).1 := by
  unfold sendWindow
  split
  · exact ⟨fun x st h => ⟨st, h, KeepsWindow.refl st, rfl⟩, fun _ h => h⟩
  · rename_i st hget
    exact calm_insert hget (sendWindowLoop_keeps _ _ _ _ _ st)
      (sendWindowLoop_arms _ _ _ _ _ st).completed rfl

theorem calm_retransmitChunks (eng : SendEngine) (b : String) (now : ℚ) (ok : Nat → Bool) :
    Calm eng (retransmitChunks eng b now ok).1 := by
  unfold retransmitChunks
  split
  · exact ⟨fun x st h => ⟨st, h, KeepsWindow.refl st, rfl⟩, fun _ h => h⟩
  · rename_i st hget
    split
    · exact ⟨fun x st h => ⟨st, h, KeepsWindow.refl st, rfl⟩, fun _ h => h⟩
    · exact calm_insert hget ((⟨rfl, rfl, rfl, rfl, rfl, fun _ _ h => h⟩ :
        KeepsWindow st { st with retransmitQueue := [] }).trans (retransmitLoop_keeps _ _ _ _ _ _))
        (retransmitLoop_arms _ _ _ _ _ _).completed rfl

theorem checkStateTimeouts_completed (now : ℚ) (st : SendState) :
    (checkStateTimeouts cfg now st).completed = st.completed := by
  unfold checkStateTimeouts
  split
  · rfl
  · dsimp only; split <;> rfl

theorem calm_checkTimeouts (eng : SendEngine) (now : ℚ) : Calm eng (checkTimeouts cfg eng now) :=
  ⟨fun x st' h => by
    simp only [checkTimeouts, Dict.get?_mapVal, Option.map_eq_some'] at h
    obtain ⟨st, hget, rfl⟩ := h
    exact ⟨st, hget, checkStateTimeouts_keeps cfg now st, checkStateTimeouts_completed cfg now st⟩,
   fun x h => by simpa [checkTimeouts] using h⟩

/-! ## Runs -/

variable (fec : FECConfig) (srcNodeId : String)

/-- Every operation keeps the engine tidy, and sends only DATA messages below the window end of
    their bundle's state. -/
theorem Tidy.step {eng : SendEngine} (h : Tidy eng) (op : SendOp) :
    Tidy (step cfg fec srcNodeId eng op).1 ∧
      ∀ m ∈ (step cfg fec srcNodeId eng op).2, SentBy (step cfg fec srcNodeId eng op).1 m := by
  have nil : ∀ e : SendEngine, ∀ m ∈ ([] : List Message), SentBy e m :=
    fun _ _ hm => absurd hm (List.not_mem_nil _)
  cases op with
  | sendFile filePath fileData destination fecEnabled bundleId now ok =>
    simp only [SendEngine.step]
    cases hr : SendEngine.sendFile cfg fec srcNodeId eng filePath fileData destination
      fecEnabled bundleId now ok with
    | none => exact ⟨h, nil eng⟩
    | some r => exact h.sendFile cfg fec srcNodeId hr
  | handleSack bundleId acked now nowSend ok => exact h.handleSack cfg bundleId acked now nowSend ok
  | handleDelivered bundleId => exact ⟨h.handleDelivered bundleId, nil _⟩
  | checkTimeouts now => exact ⟨h.checkTimeouts cfg now, nil _⟩
  | retransmitChunks bundleId now ok => exact h.retransmitChunks bundleId now ok
  | resumeTransfers => exact ⟨h.resumeTransfers cfg, nil _⟩
  | cleanupCompletedTransfers => exact ⟨h.cleanupCompletedTransfers, nil _⟩

theorem Tidy.run {eng : SendEngine} (h : Tidy eng) (ops : List SendOp) :
    Tidy (run cfg fec srcNodeId eng ops) := by
  induction ops generalizing eng with
  | nil => exact h
  | cons op ops ih => exact ih (h.step cfg fec srcNodeId op).1

theorem tidy_fresh (store : Store) (h : StoreKeyed store) : Tidy { store } :=
  ⟨fun _ _ hd => by simp at hd, h, fun _ _ hb => by simp at hb⟩

/-! ## A SACK after completion -/

/-- `_send_window` leaves a cache entry for its bundle. -/
theorem isSome_windowChunks (eng : SendEngine) (b : String) :
    ((eng.windowChunks b).1.get? b).isSome := by
  unfold SendEngine.windowChunks
  split
  · split
    · rw [Dict.get?_insert, if_pos rfl]; rfl
    · rw [‹eng.chunkCache.get? b = _›]; rfl
  · rw [Dict.get?_insert, if_pos rfl]; rfl

/-- Acking the first unacked id below the total moves the first unacked id past it. -/
theorem lt_firstUnacked_insert {acked : Finset Nat} {total : Nat}
    (h : firstUnacked acked total < total) :
    firstUnacked acked total < firstUnacked (insert (firstUnacked acked total) acked) total := by
  by_contra hle
  have hlt := lt_of_le_of_lt (not_lt.mp hle) h
  have hnot := firstUnacked_not_mem hlt
  rcases Nat.lt_or_eq_of_le (not_lt.mp hle) with hl | he
  · exact hnot (Finset.mem_insert_of_mem (mem_of_lt_firstUnacked hl))
  · exact hnot (by rw [he]; exact Finset.mem_insert_self _ _)

/-- In every run of a fresh engine, a completed state whose window has not reached the end and
    whose acked ids, with its window start, still miss one: a SACK of the window start moves the
    window end, so `handle_sack` calls `_send_window`, which refills the chunk cache of the
    completed bundle from the store. -/
theorem sack_after_completion_refills_cache (store : Store) (ops : List SendOp) {b : String}
    {st : SendState} (now nowSend : ℚ) (ok : Nat → Bool)
    (hget : (run cfg fec srcNodeId { store } ops).activeSends.get? b = some st)
    (hc : st.completed = true) (hend : st.windowEnd < st.totalChunks)
    (hcard : (insert st.windowStart st.ackedChunks).card < st.totalChunks) :
    let r := handleSack cfg (run cfg fec srcNodeId { store } ops) b {st.windowStart} now nowSend ok
    (r.1.chunkCache.get? b).isSome ∧ (r.1.activeSends.get? b).map SendState.completed = some true := by
  intro r
  have hinv := engineInv_run cfg fec srcNodeId ops (engineInv_fresh (fun _ => ∅) store) b st hget
  obtain ⟨s1, s2, s3, s4, s5, -⟩ := sackState_spec cfg now st {st.windowStart}
  have hacked : st.ackedChunks ∪ {st.windowStart} = insert st.windowStart st.ackedChunks := by
    rw [Finset.union_comm, Finset.insert_eq]
  have hws : st.windowStart < st.totalChunks := by
    have := hinv.windowEnd_eq
    omega
  have hstart : st.windowStart < (sackState cfg now st {st.windowStart}).windowStart := by
    have hmono : st.windowStart ≤ firstUnacked (insert st.windowStart st.ackedChunks)
        st.totalChunks := hinv.windowStart_eq ▸ firstUnacked_mono (Finset.subset_insert _ _) _
    rw [s4, hacked, advanceWindowStart_eq hmono]
    have := @lt_firstUnacked_insert st.ackedChunks st.totalChunks
    rw [← hinv.windowStart_eq] at this
    exact this hws
  have hgrow : st.windowEnd < (sackState cfg now st {st.windowStart}).windowEnd := by
    have := hinv.windowEnd_eq
    rw [s5]
    omega
  have hsend : r = sendWindow { run cfg fec srcNodeId { store } ops with
      activeSends := (run cfg fec srcNodeId { store } ops).activeSends.insert b
        (sackState cfg now st {st.windowStart}) } b nowSend ok := by
    show handleSack cfg _ b _ now nowSend ok = _
    rw [handleSack, hget]
    dsimp only
    rw [if_neg (by rw [s1, s2, hacked]; omega), if_pos hgrow]
  rw [hsend]
  refine ⟨?_, ?_⟩
  · unfold sendWindow
    rw [Dict.get?_insert, if_pos rfl]
    exact isSome_windowChunks _ b
  · have hcalm := calm_sendWindow { run cfg fec srcNodeId { store } ops with
      activeSends := (run cfg fec srcNodeId { store } ops).activeSends.insert b
        (sackState cfg now st {st.windowStart}) } b nowSend ok
    have hsome := hcalm.isSome b (by rw [Dict.get?_insert, if_pos rfl]; rfl)
    obtain ⟨st'', hst''⟩ := Option.isSome_iff_exists.mp hsome
    obtain ⟨st₀, h₀, -, hc₀⟩ := hcalm.states b st'' hst''
    rw [Dict.get?_insert, if_pos rfl, Option.some.injEq] at h₀
    rw [hst'', Option.map_some', hc₀, ← h₀, (sackState_queue cfg now st _).2, hc]

/-- Two bytes in chunks of 1 byte under the default FEC, window 1: DELIVERED completes the
    bundle at window `[0, 1)` of 4 chunks, and a SACK of chunk 0 then refills the cache and
    sends a DATA message. -/
theorem sack_after_delivered_refills_cache :
    let cfg : TransferConfig := { chunkSize := 1, windowSize := 1 }
    let eng := run cfg {} "A" { store := Store.empty }
      [.sendFile "f" [7, 8] "B" true "b" 0 (fun _ => true), .handleDelivered "b"]
    ∃ st, eng.activeSends.get? "b" = some st ∧ st.completed = true ∧
      st.windowEnd < st.totalChunks ∧ (insert st.windowStart st.ackedChunks).card < st.totalChunks ∧
      eng.chunkCache.get? "b" = none ∧
      let r := handleSack cfg eng "b" {st.windowStart} 1 1 fun _ => true
      ((r.1.chunkCache.get? "b").isSome ∧
        (r.1.activeSends.get? "b").map SendState.completed = some true) ∧ r.2 ≠ [] :=
  ⟨_, rfl, rfl, by decide, by decide, rfl,
    sack_after_completion_refills_cache _ {} "A" Store.empty _ 1 1 _ rfl rfl (by decide) (by decide),
    by decide⟩

end SendEngine

end Courier
