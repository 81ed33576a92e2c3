import Courier.Reassembly

/-
  Courier: what a receiver writes, whatever arrives.

  Model (read this before the theorems). An `Arrival` is a DATA message handed to
  `handle_data` with what the call reads besides: the sender's address, whether the write of the
  output file succeeds, and the `CUSTODY_ACK` nonce. `receive` runs the receiver over any list of
  arrivals: any order, repeats, losses, other bundles' messages in between, writes that fail.
  The DATA messages of one bundle are read against `headerState`, the state
  `_create_receive_state` makes for their header. A message is `Faithful` to it and to the data
  payloads `pay` when a data id `c` carries `pay c` (of block `c / k` under FEC) and any later id
  is, under FEC only, a parity chunk of block `(c - D) / r` carrying the zero-padded XOR of the
  block's data. `createChunks_faithful` shows that the chunks `_create_chunks` makes are read so
  when the receiver has FEC enabled wherever parity was made and the file is then a whole number
  of chunks; without the first the receiver appends parity to the file, without the second a
  rebuilt short last chunk comes back zero-padded.

  Each stage of `handle_data` is said once, guards included (`stateFor_cases`,
  `tryFecReconstruct_cases`, `maybeDeliver_eq_ite`, `handleData_cases`), and the invariants are
  derived from these: `Paths` (every state sits at its bundle's output path), `Holds` (a state of
  the bundle has its header's layout and only true data and parity), and `Intact` (the bundle's
  state holds, and a file at its path is the data payloads in order).

  Proved:
  * `receive_writes_only_sent_file`: whatever arrives, the file at a bundle's path is absent or
    is the file sent.
  * `receive_frozen_once_all_received`: once a state has received every id below its total, no
    message of its bundle changes it or its file; so a write that failed when the last chunk came
    in is never retried, however often the sender retransmits.
-/

namespace Courier

/-- A state with what it has received forgotten: its bundle, chunk count, FEC layout and output
    path. -/
def ReceiveState.shape (st : ReceiveState) : ReceiveState :=
  { st with receivedChunks := ∅, dataChunks := ∅, parityChunks := ∅, delivered := false,
            writeBuffer := [] }

/-- A state has the bundle, counts, FEC layout and path of its shape. -/
theorem ReceiveState.layout_of_shape {st hdr : ReceiveState} (h : st.shape = hdr) :
    st.bundleId = hdr.bundleId ∧ st.totalChunks = hdr.totalChunks ∧
      st.fecEnabled = hdr.fecEnabled ∧ st.k = hdr.k ∧ st.r = hdr.r ∧
      st.outputPath = hdr.outputPath ∧ st.numDataChunks = hdr.numDataChunks := by
  subst h; exact ⟨rfl, rfl, rfl, rfl, rfl, rfl, rfl⟩

namespace ReceiveEngine

variable (cfg : TransferConfig) (fec : FECConfig) (nodeId outputDir : String)

/-! ## The state a header makes -/

/-- The output path `_create_receive_state` gives bundle `b`. -/
def outputPathFor (b : String) : String := pathJoin outputDir ("bundle_" ++ b ++ ".bin")

/-- Two bundles never share an output path. -/
theorem outputPathFor_inj {x y : String} (h : outputPathFor outputDir x = outputPathFor outputDir y) :
    x = y := by
  unfold outputPathFor pathJoin at h
  split at h <;> simpa [String.ext_iff] using congrArg String.data h

/-- The state `_create_receive_state` makes for a DATA message of bundle `b` of `N` chunks with
    the header `k, r`, before it records the chunk. -/
def headerState (b : String) (N k r : Nat) : ReceiveState :=
  (createReceiveState cfg fec nodeId outputDir Store.empty b N k r "").2

/-- The state a DATA message creates depends on its header only. -/
theorem createReceiveState_snd (store : Store) (b : String) (N k r : Nat) (src : String) :
    (createReceiveState cfg fec nodeId outputDir store b N k r src).2 =
      headerState cfg fec nodeId outputDir b N k r := by
  unfold headerState createReceiveState
  split; rfl

theorem headerState_shape (b : String) (N k r : Nat) :
    (headerState cfg fec nodeId outputDir b N k r).shape = headerState cfg fec nodeId outputDir b N k r := by
  unfold headerState createReceiveState
  split; rfl

/-- A header state sits under its bundle, with its chunk count, at its bundle's path, and uses
    FEC only with positive `k`, `r` and data count. -/
theorem headerState_spec (b : String) (N k r : Nat) :
    let hdr := headerState cfg fec nodeId outputDir b N k r
    hdr.bundleId = b ∧ hdr.totalChunks = N ∧ hdr.outputPath = outputPathFor outputDir b ∧
      (hdr.fecEnabled = true → 0 < hdr.k ∧ 0 < hdr.r ∧ 0 < hdr.numDataChunks) := by
  unfold headerState createReceiveState
  split_ifs with hc
  · cases hi : inferBlockAndDataCount N k r with
    | none => exact ⟨rfl, rfl, rfl, nofun⟩
    | some p =>
      obtain ⟨B, D⟩ := p
      have hk := Nat.pos_of_ne_zero hc.1
      have hr := Nat.pos_of_ne_zero hc.2.1
      exact ⟨rfl, rfl, rfl, fun _ => ⟨hk, hr, ((inferBlockAndDataCount_eq_some hk hr N B D).mp hi).1⟩⟩
  · exact ⟨rfl, rfl, rfl, nofun⟩

/-- A FEC header whose total is `D + r * ⌈D / k⌉` makes a state with FEC on and `D` data
    chunks. -/
theorem headerState_fec (hon : fec.enabled = true) (b : String) {k r D : Nat} (hk : 0 < k)
    (hr : 0 < r) (hD : 0 < D) :
    let hdr := headerState cfg fec nodeId outputDir b (D + r * ((D + k - 1) / k)) k r
    hdr.fecEnabled = true ∧ hdr.k = k ∧ hdr.r = r ∧ hdr.numDataChunks = D := by
  have hi := (inferBlockAndDataCount_eq_some hk hr _ _ _).mpr ⟨hD, rfl, rfl⟩
  simp only [headerState, createReceiveState, Nat.pos_iff_ne_zero.mp hk,
    Nat.pos_iff_ne_zero.mp hr, hon, hi, ne_eq, not_false_eq_true, and_self, if_true]

/-- A header without `k` or `r` makes a state without FEC, every chunk data. -/
theorem headerState_off (b : String) (N : Nat) {k r : Nat} (h : k = 0 ∨ r = 0) :
    let hdr := headerState cfg fec nodeId outputDir b N k r
    hdr.fecEnabled = false ∧ hdr.numDataChunks = N := by
  unfold headerState createReceiveState
  rw [if_neg fun hc => h.elim hc.1 hc.2.1]
  exact ⟨rfl, rfl⟩

/-! ## `handle_data`, stage by stage -/

/-- A data id is recorded as data. -/
theorem recordChunk_of_lt (st : ReceiveState) (msg : DataMsg) (hc : msg.chunkId < st.numDataChunks) :
    recordChunk st msg = { st with
      receivedChunks := insert msg.chunkId st.receivedChunks,
      dataChunks := st.dataChunks.insert msg.chunkId msg.payload } := by
  unfold recordChunk
  dsimp only
  split_ifs <;> rfl

/-- Under FEC, an id past the data count is recorded as a parity payload of its block. -/
theorem recordChunk_of_le (st : ReceiveState) (msg : DataMsg) (hf : st.fecEnabled = true)
    (hk : 0 < st.k) (hc : st.numDataChunks ≤ msg.chunkId) (hnd : 0 < st.numDataChunks) :
    recordChunk st msg = { st with
      receivedChunks := insert msg.chunkId st.receivedChunks,
      parityChunks := st.parityChunks.insert msg.blockId
        ((st.parityChunks.get? msg.blockId).getD [] ++ [msg.payload]) } := by
  unfold recordChunk
  dsimp only
  rw [if_pos ⟨hf, hk, hnd⟩, if_neg (by omega)]

theorem recordChunk_shape (st : ReceiveState) (msg : DataMsg) :
    (recordChunk st msg).shape = st.shape := by
  obtain ⟨_, _, he⟩ := recordChunk_eq st msg
  rw [he]; rfl

/-- `_try_fec_reconstruct` either leaves the state as it is, which it does when the bundle has
    FEC with a first parity payload for the block only if the block does not miss exactly one
    data chunk, or rebuilds that one missing data chunk `m` from the first parity payload. -/
theorem tryFecReconstruct_cases (st : ReceiveState) (blk : Nat) (store : Store) :
    (tryFecReconstruct st blk store).1 = st ∧
        (st.fecEnabled = true → 0 < st.k → 0 < st.r → ∀ p ps m,
          st.parityChunks.get? blk = some (p :: ps) →
          (blockIds st blk).filter (fun c => (st.dataChunks.get? c).isNone) ≠ [m]) ∨
      ∃ p ps m, st.fecEnabled = true ∧ 0 < st.k ∧ 0 < st.r ∧
        st.parityChunks.get? blk = some (p :: ps) ∧
        (blockIds st blk).filter (fun c => (st.dataChunks.get? c).isNone) = [m] ∧
        (tryFecReconstruct st blk store).1 = { st with
          dataChunks := st.dataChunks.insert m (xorBytes p (((blockIds st blk).filter
            fun c => (st.dataChunks.get? c).isSome).map fun c => (st.dataChunks.get? c).getD []))
          receivedChunks := insert m st.receivedChunks } := by
  unfold tryFecReconstruct
  split
  · rename_i hoff
    refine Or.inl ⟨rfl, fun hf hk hr => absurd hoff ?_⟩
    simp [hf, hk.ne', hr.ne']
  · rename_i hon
    simp only [Bool.not_eq_true', not_or, Bool.not_eq_false] at hon
    cases hp : st.parityChunks.get? blk with
    | none => exact Or.inl ⟨rfl, fun _ _ _ _ _ _ h => nomatch h⟩
    | some ps =>
      cases ps with
      | nil => exact Or.inl ⟨rfl, fun _ _ _ _ _ _ h => nomatch h⟩
      | cons p ps =>
        dsimp only [Option.bind, List.head?]
        split
        · rename_i m hm
          exact Or.inr ⟨p, ps, m, hon.1, Nat.pos_of_ne_zero hon.2.1, Nat.pos_of_ne_zero hon.2.2,
            rfl, hm, rfl⟩
        · rename_i hnot
          refine Or.inl ⟨rfl, fun _ _ _ p' ps' m h => ?_⟩
          cases h
          exact hnot m

theorem takeChunk_shape (st : ReceiveState) (msg : DataMsg) (store : Store) :
    (takeChunk st msg store).1.shape = st.shape := by
  have hflush : ∀ st' store', (flush st' store').1.shape = st'.shape := fun _ _ => by
    unfold flush; split <;> rfl
  have hfec : ∀ st' blk store', (tryFecReconstruct st' blk store').1.shape = st'.shape :=
    fun st' blk store' => by
      rcases tryFecReconstruct_cases st' blk store' with ⟨h, -⟩ | ⟨_, _, _, _, _, _, _, _, h⟩
      · rw [h]
      · rw [h]; rfl
  unfold takeChunk
  dsimp only
  split
  · rw [hflush, hfec]; exact recordChunk_shape st msg
  · rw [hflush]; exact recordChunk_shape st msg

/-- `_maybe_deliver` writes and marks the state delivered exactly when it is not yet delivered,
    every data chunk is there and the write succeeds. -/
theorem maybeDeliver_eq_ite (st : ReceiveState) (store : Store) (files : Dict String Bytes)
    (writeOk : Bool) (ackNonce : Nat) :
    maybeDeliver st store files writeOk ackNonce =
      if st.delivered = false ∧ (∀ c < st.numData, (st.dataChunks.get? c).isSome) ∧
          writeOk = true then
        ({ st with delivered := true }, store.updateBundleState st.bundleId "delivered",
          files.insert st.outputPath st.assembled,
          [makeDeliveredMsg st.bundleId, makeCustodyAckMsg st.bundleId [] ackNonce])
      else (st, store, files, []) := by
  cases writeOk with
  | true => simpa using maybeDeliver_eq st store files ackNonce
  | false =>
    rw [if_neg fun h => Bool.false_ne_true h.2.2]
    simp [maybeDeliver]

/-- The state `handle_data` works on: the bundle's own, or the one `_create_receive_state`
    makes for the message's header. -/
theorem stateFor_cases (eng : ReceiveEngine) (msg : DataMsg) (src : String) :
    eng.activeReceives.get? msg.bundleId = some (stateFor cfg fec nodeId outputDir eng msg src).2 ∨
      eng.activeReceives.get? msg.bundleId = none ∧
        (stateFor cfg fec nodeId outputDir eng msg src).2 =
          headerState cfg fec nodeId outputDir msg.bundleId msg.totalChunks msg.k msg.r := by
  unfold stateFor
  cases h : eng.activeReceives.get? msg.bundleId with
  | some st => exact Or.inl rfl
  | none => exact Or.inr ⟨rfl, createReceiveState_snd ..⟩

/-- What `handle_data` does to the states and the files: a repeated chunk puts the state back
    as it was; a new one is taken, and the file is written, and the state marked delivered, when
    `_maybe_deliver` finds every data chunk and the write succeeds. -/
theorem handleData_cases (eng : ReceiveEngine) (msg : DataMsg) (src : String) (writeOk : Bool)
    (ackNonce : Nat) :
    let s := stateFor cfg fec nodeId outputDir eng msg src
    let t := (takeChunk s.2 msg s.1).1
    let e := (handleData cfg fec nodeId outputDir eng msg src writeOk ackNonce).1
    msg.chunkId ∈ s.2.receivedChunks ∧
        e.activeReceives = eng.activeReceives.insert msg.bundleId s.2 ∧ e.files = eng.files ∨
      msg.chunkId ∉ s.2.receivedChunks ∧
        if t.delivered = false ∧ (∀ c < t.numData, (t.dataChunks.get? c).isSome) ∧
            writeOk = true then
          e.activeReceives = eng.activeReceives.insert msg.bundleId { t with delivered := true } ∧
            e.files = eng.files.insert t.outputPath t.assembled
        else e.activeReceives = eng.activeReceives.insert msg.bundleId t ∧ e.files = eng.files := by
  intro s t e
  unfold e handleData
  dsimp only
  split
  · exact Or.inl ⟨‹_›, rfl, rfl⟩
  · refine Or.inr ⟨‹_›, ?_⟩
    rw [maybeDeliver_eq_ite]
    split_ifs <;> exact ⟨rfl, rfl⟩

/-! ## Faithful messages and true states -/

/-- The data ids of block `blk` are the data ids `c` with `c / k = blk`. -/
theorem mem_blockIds {st : ReceiveState} (hk : 0 < st.k) {blk c : Nat} :
    c ∈ blockIds st blk ↔ c < st.numDataChunks ∧ c / st.k = blk := by
  have hdiv : c / st.k = blk ↔ blk * st.k ≤ c ∧ c < blk * st.k + st.k := by
    rw [← Nat.le_div_iff_mul_le hk, ← Nat.succ_mul, ← Nat.div_lt_iff_lt_mul hk]
    omega
  rw [blockIds, List.mem_range'_1, hdiv]
  omega

/-- A DATA message of a bundle as the sender of the data payloads `pay` sends it, read against
    the state `hdr` the receiver makes for its header `k, r`. -/
structure Faithful (hdr : ReceiveState) (k r : Nat) (pay : Nat → Bytes) (msg : DataMsg) : Prop where
  header : msg.totalChunks = hdr.totalChunks ∧ msg.k = k ∧ msg.r = r
  data : msg.chunkId < hdr.numDataChunks → msg.payload = pay msg.chunkId ∧
    (hdr.fecEnabled = true → msg.blockId = msg.chunkId / hdr.k)
  parity : hdr.numDataChunks ≤ msg.chunkId → hdr.fecEnabled = true ∧
    msg.blockId = (msg.chunkId - hdr.numDataChunks) / hdr.r ∧
    msg.payload = paddedXor ((blockIds hdr msg.blockId).map pay)

/-- What a state of a bundle holds when every DATA message of the bundle is `Faithful` to `hdr`
    and the data payloads `pay`: `hdr`'s layout, only true data payloads, and only true
    parity. -/
structure Holds (hdr : ReceiveState) (pay : Nat → Bytes) (st : ReceiveState) : Prop where
  shape : st.shape = hdr
  data : ∀ c p, st.dataChunks.get? c = some p → p = pay c
  parity : ∀ blk ps, st.parityChunks.get? blk = some ps → ∀ p ∈ ps,
    p = paddedXor ((blockIds hdr blk).map pay)

/-- Rebuilding from a dictionary of true payloads: the XOR of a block's zero-padded XOR with the
    present payloads of the block is the one missing payload, when no payload of the block is
    longer. -/
theorem xorBytes_rebuild (ids : List Nat) (pay : Nat → Bytes) (d : Dict Nat Bytes) {m : Nat}
    (hd : ∀ c p, d.get? c = some p → p = pay c)
    (hmiss : ids.filter (fun c => (d.get? c).isNone) = [m])
    (hlen : ∀ c ∈ ids, (pay c).length ≤ (pay m).length) :
    xorBytes (paddedXor (ids.map pay))
      ((ids.filter fun c => (d.get? c).isSome).map fun c => (d.get? c).getD []) = pay m := by
  set present := ids.filter fun c => (d.get? c).isSome
  have hpres : present.map (fun c => (d.get? c).getD []) = present.map pay :=
    List.map_congr_left fun c hc => by
      obtain ⟨q, hq⟩ := Option.isSome_iff_exists.mp (List.mem_filter.mp hc).2
      rw [hq, hd c q hq]; rfl
  have hm : m ∈ ids := (List.mem_filter.mp (hmiss ▸ List.mem_singleton_self m)).1
  have hL : (ids.map pay).foldl (fun m p => max m p.length) 0 = (pay m).length :=
    le_antisymm (foldl_max_le (fun q hq => by
      obtain ⟨c, hc, rfl⟩ := List.mem_map.mp hq
      exact hlen c hc) (Nat.zero_le _)) ((le_foldl_max _ 0).2 _ (List.mem_map_of_mem pay hm))
  have hnone : ids.filter (fun c => !(d.get? c).isSome) = [m] := by
    rw [← hmiss]
    exact List.filter_congr fun c _ => by cases d.get? c <;> rfl
  rw [hpres]
  refine eq_of_getD ?_ fun i => ?_
  · rw [xorBytes, length_foldl_xorInto, length_paddedXor, hL]
    refine le_antisymm (foldl_max_le (fun q hq => ?_) le_rfl) (le_foldl_max _ _).1
    obtain ⟨c, hc, rfl⟩ := List.mem_map.mp hq
    exact hlen c (List.mem_filter.mp hc).1
  · rw [xorBytes, getD_foldl_xorInto, getD_paddedXor, foldl_xor_init, List.foldl_map,
      List.foldl_map, foldl_xor_filter (fun c => (pay c).getD i 0)
        (fun c => (d.get? c).isSome) ids, hnone, List.foldl_cons, List.foldl_nil,
      Nat.zero_xor, Nat.xor_comm, ← Nat.xor_assoc, Nat.xor_self, Nat.zero_xor]

namespace Holds

variable {hdr : ReceiveState} {pay : Nat → Bytes} {st : ReceiveState}

theorem blockIds_eq (h : Holds hdr pay st) (blk : Nat) : blockIds st blk = blockIds hdr blk := by
  rw [← h.shape]; rfl

theorem numData_eq (h : Holds hdr pay st) : st.numData = hdr.numData := by
  rw [← h.shape]; rfl

theorem data_insert (h : Holds hdr pay st) {c : Nat} {p : Bytes} (hp : p = pay c) :
    ∀ c' q, (st.dataChunks.insert c p).get? c' = some q → q = pay c' := fun c' q hq => by
  rw [Dict.get?_insert] at hq
  split at hq
  · cases hq; subst c'; exact hp
  · exact h.data c' q hq

/-- A rebuild from true parity and true data, all data payloads of one width, is true. -/
theorem tryFecReconstruct (h : Holds hdr pay st) {w : Nat}
    (hw : hdr.fecEnabled = true → ∀ c < hdr.numDataChunks, (pay c).length = w) (blk : Nat)
    (store : Store) : Holds hdr pay (ReceiveEngine.tryFecReconstruct st blk store).1 := by
  rcases tryFecReconstruct_cases st blk store with ⟨he, -⟩ | ⟨p, ps, m, hf, -, -, hp, hmiss, he⟩
  · rwa [he]
  · have hw' := hw (by rw [← h.shape]; exact hf)
    have hin : ∀ c ∈ blockIds hdr blk, c < hdr.numDataChunks := fun c hc => by
      rw [blockIds, List.mem_range'_1] at hc; omega
    rw [h.blockIds_eq] at hmiss
    have hm := hin m (List.mem_filter.mp (hmiss ▸ List.mem_singleton_self m)).1
    rw [he]
    refine ⟨h.shape, h.data_insert ?_, h.parity⟩
    rw [h.parity blk _ hp p (List.mem_cons_self _ _), h.blockIds_eq]
    exact xorBytes_rebuild _ pay _ h.data hmiss fun c hc => by rw [hw' c (hin c hc), hw' m hm]

/-- Recording a faithful message keeps a state true. -/
theorem recordChunk {k r : Nat} {msg : DataMsg} (h : Holds hdr pay st)
    (hm : Faithful hdr k r pay msg)
    (hpos : hdr.fecEnabled = true → 0 < hdr.k ∧ 0 < hdr.r ∧ 0 < hdr.numDataChunks) :
    Holds hdr pay (ReceiveEngine.recordChunk st msg) := by
  obtain ⟨-, -, hfe, hke, -, -, hnd⟩ := ReceiveState.layout_of_shape h.shape
  by_cases hc : msg.chunkId < hdr.numDataChunks
  · rw [recordChunk_of_lt st msg (hnd ▸ hc)]
    exact ⟨h.shape, h.data_insert (hm.data hc).1, h.parity⟩
  · obtain ⟨hf, -, hp⟩ := hm.parity (Nat.le_of_not_lt hc)
    obtain ⟨hk, -, hpos⟩ := hpos hf
    rw [recordChunk_of_le st msg (hfe.trans hf) (hke ▸ hk) (by omega) (by omega)]
    refine ⟨h.shape, h.data, fun blk ps hps q hq => ?_⟩
    rw [Dict.get?_insert] at hps
    split at hps
    · cases hps
      subst blk
      rcases List.mem_append.mp hq with hq | hq
      · cases hold : st.parityChunks.get? msg.blockId with
        | none => rw [hold] at hq; cases hq
        | some ps => rw [hold] at hq; exact h.parity _ ps hold q hq
      · rw [List.mem_singleton.mp hq, hp]
    · exact h.parity blk ps hps q hq

theorem flush (h : Holds hdr pay st) (store : Store) : Holds hdr pay (ReceiveEngine.flush st store).1 := by
  unfold ReceiveEngine.flush
  split
  · exact ⟨h.shape, h.data, h.parity⟩
  · exact h

/-- `takeChunk` of a faithful message keeps a state true. -/
theorem takeChunk {k r w : Nat} {msg : DataMsg} (h : Holds hdr pay st)
    (hm : Faithful hdr k r pay msg)
    (hpos : hdr.fecEnabled = true → 0 < hdr.k ∧ 0 < hdr.r ∧ 0 < hdr.numDataChunks)
    (hw : hdr.fecEnabled = true → ∀ c < hdr.numDataChunks, (pay c).length = w) (store : Store) :
    Holds hdr pay (ReceiveEngine.takeChunk st msg store).1 := by
  have h₁ := h.recordChunk hm hpos
  have h₂ : Holds hdr pay { ReceiveEngine.recordChunk st msg with
      writeBuffer := (ReceiveEngine.recordChunk st msg).writeBuffer ++
        [chunkRow (ReceiveEngine.recordChunk st msg) msg] } := ⟨h₁.shape, h₁.data, h₁.parity⟩
  unfold ReceiveEngine.takeChunk
  dsimp only
  split
  · exact (h₂.tryFecReconstruct hw _ _).flush _
  · exact h₂.flush _

/-- A true state with every data chunk assembles the file. -/
theorem assembled (h : Holds hdr pay st) (hall : ∀ c < st.numData, (st.dataChunks.get? c).isSome) :
    st.assembled = ((List.range hdr.numData).map pay).flatten := by
  rw [ReceiveState.assembled, h.numData_eq]
  refine congrArg List.flatten (List.map_congr_left fun c hc => ?_)
  obtain ⟨q, hq⟩ := Option.isSome_iff_exists.mp
    (hall c (h.numData_eq ▸ List.mem_range.mp hc))
  rw [hq, h.data c q hq]; rfl

end Holds

/-! ## The receiver -/

/-- Every state sits at the output path `_create_receive_state` gives its bundle. -/
def Paths (eng : ReceiveEngine) : Prop :=
  ∀ x st, eng.activeReceives.get? x = some st → st.outputPath = outputPathFor outputDir x

theorem Paths.insert {eng eng' : ReceiveEngine} (h : Paths outputDir eng) {x : String}
    {st : ReceiveState} (ha : eng'.activeReceives = eng.activeReceives.insert x st)
    (hst : st.outputPath = outputPathFor outputDir x) : Paths outputDir eng' :=
  fun y st' hy => by
    rw [ha, Dict.get?_insert] at hy
    split at hy
    · cases hy; subst y; exact hst
    · exact h y st' hy

/-- The state `handle_data` works on, and so the state it takes the chunk into, sits at the
    output path of the message's bundle. -/
theorem outputPath_stateFor {eng : ReceiveEngine} (h : Paths outputDir eng) (msg : DataMsg)
    (src : String) :
    (stateFor cfg fec nodeId outputDir eng msg src).2.outputPath =
      outputPathFor outputDir msg.bundleId := by
  rcases stateFor_cases cfg fec nodeId outputDir eng msg src with hg | ⟨-, he⟩
  · exact h _ _ hg
  · rw [he]; exact (headerState_spec ..).2.2.1

theorem Paths.handleData {eng : ReceiveEngine} (h : Paths outputDir eng) (msg : DataMsg)
    (src : String) (writeOk : Bool) (ackNonce : Nat) :
    Paths outputDir (handleData cfg fec nodeId outputDir eng msg src writeOk ackNonce).1 := by
  have hs := outputPath_stateFor cfg fec nodeId outputDir h msg src
  have ht := (ReceiveState.layout_of_shape (takeChunk_shape _ msg
    (stateFor cfg fec nodeId outputDir eng msg src).1)).2.2.2.2.2.1.trans hs
  rcases handleData_cases cfg fec nodeId outputDir eng msg src writeOk ackNonce with
    ⟨-, ha, -⟩ | ⟨-, hc⟩
  · exact h.insert outputDir ha hs
  · split_ifs at hc
    · exact h.insert outputDir hc.1 ht
    · exact h.insert outputDir hc.1 ht

theorem paths_empty (outputDir : String) : Paths outputDir {} := fun _ _ h => nomatch h

/-- What the receiver holds of the bundle of `hdr`, when every DATA message of it is
    `Faithful` to `hdr` and the data payloads `pay`: its state, if any, is true, and a file at
    its path is the data payloads in order. -/
structure Intact (hdr : ReceiveState) (pay : Nat → Bytes) (eng : ReceiveEngine) : Prop where
  state : ∀ st, eng.activeReceives.get? hdr.bundleId = some st → Holds hdr pay st
  file : ∀ out, eng.files.get? hdr.outputPath = some out →
    out = ((List.range hdr.numData).map pay).flatten

theorem holds_shape (hdr : ReceiveState) (pay : Nat → Bytes) : Holds hdr.shape pay hdr.shape :=
  ⟨rfl, (fun _ _ h => nomatch h), fun _ _ h => nomatch h⟩

/-- One `handle_data` keeps `Intact`: whatever other bundles' messages do, and whatever message
    of the bundle arrives, as long as it is faithful. -/
theorem Intact.handleData {hdr : ReceiveState} {pay : Nat → Bytes} {k r w : Nat}
    {eng : ReceiveEngine} (hp : Paths outputDir eng) (h : Intact hdr pay eng)
    (hhdr : headerState cfg fec nodeId outputDir hdr.bundleId hdr.totalChunks k r = hdr)
    (hw : hdr.fecEnabled = true → ∀ c < hdr.numDataChunks, (pay c).length = w)
    (msg : DataMsg) (hm : msg.bundleId = hdr.bundleId → Faithful hdr k r pay msg) (src : String)
    (writeOk : Bool) (ackNonce : Nat) :
    Intact hdr pay (handleData cfg fec nodeId outputDir eng msg src writeOk ackNonce).1 := by
  obtain ⟨-, -, hpath, hpos⟩ :=
    headerState_spec cfg fec nodeId outputDir hdr.bundleId hdr.totalChunks k r
  rw [hhdr] at hpath hpos
  set s := stateFor cfg fec nodeId outputDir eng msg src
  have hs : msg.bundleId = hdr.bundleId → Holds hdr pay s.2 := fun hb => by
    rcases stateFor_cases cfg fec nodeId outputDir eng msg src with hg | ⟨-, he⟩
    · exact h.state _ (hb ▸ hg)
    · obtain ⟨hN, hk, hr⟩ := (hm hb).header
      have hsh := headerState_shape cfg fec nodeId outputDir hdr.bundleId hdr.totalChunks k r
      rw [hhdr] at hsh
      rw [he, hb, hN, hk, hr, hhdr, ← hsh]
      exact holds_shape hdr pay
  have ht : msg.bundleId = hdr.bundleId → Holds hdr pay (takeChunk s.2 msg s.1).1 := fun hb =>
    (hs hb).takeChunk (hm hb) hpos hw _
  have hins : ∀ st' : ReceiveState, (msg.bundleId = hdr.bundleId → Holds hdr pay st') →
      ∀ eng' : ReceiveEngine, eng'.activeReceives = eng.activeReceives.insert msg.bundleId st' →
      ∀ st, eng'.activeReceives.get? hdr.bundleId = some st → Holds hdr pay st :=
    fun st' hst' eng' ha st hst => by
      rw [ha, Dict.get?_insert] at hst
      split at hst
      · rename_i hb
        cases hst; exact hst' hb.symm
      · exact h.state st hst
  rcases handleData_cases cfg fec nodeId outputDir eng msg src writeOk ackNonce with
    ⟨-, ha, hf⟩ | ⟨-, hc⟩
  · exact ⟨hins _ hs _ ha, by rw [hf]; exact h.file⟩
  · split_ifs at hc with hwr
    · refine ⟨hins { (takeChunk s.2 msg s.1).1 with delivered := true }
        (fun hb => ⟨(ht hb).shape, (ht hb).data, (ht hb).parity⟩) _ hc.1,
        fun out ho => ?_⟩
      rw [hc.2, Dict.get?_insert] at ho
      split at ho
      · rename_i heq
        have htp := (ReceiveState.layout_of_shape (takeChunk_shape s.2 msg s.1)).2.2.2.2.2.1.trans
          (outputPath_stateFor cfg fec nodeId outputDir hp msg src)
        have hb := outputPathFor_inj outputDir (htp.symm.trans (heq.symm.trans hpath))
        cases ho
        exact (ht hb).assembled hwr.2.1
      · exact h.file out ho
    · exact ⟨hins _ ht _ hc.1, by rw [hc.2]; exact h.file⟩

/-! ## What the sender's chunks say -/

theorem take_drop_range (n s k : Nat) :
    ((List.range n).drop s).take k = List.range' s (min (s + k) n - s) :=
  List.ext_getElem (by simp; omega) fun i _ _ => by simp [List.getElem_range']

/-- A file that is a whole number of chunks has every data chunk one chunk wide. -/
theorem dataChunk_length_whole (sendCfg : TransferConfig) (sendFec : FECConfig) (fileData : Bytes)
    (b : String) (useFec : Bool) (hcs : 0 < sendCfg.chunkSize)
    (hwhole : fileData.length % sendCfg.chunkSize = 0) {i : Nat}
    (hi : i < (fileData.length + sendCfg.chunkSize - 1) / sendCfg.chunkSize) :
    (dataChunk sendCfg sendFec fileData b useFec i).payload.length = sendCfg.chunkSize := by
  obtain ⟨q, hq⟩ := Nat.dvd_of_mod_eq_zero hwhole
  have hD : (fileData.length + sendCfg.chunkSize - 1) / sendCfg.chunkSize = q := by
    rw [hq, show sendCfg.chunkSize * q + sendCfg.chunkSize - 1 =
      sendCfg.chunkSize - 1 + sendCfg.chunkSize * q by omega, Nat.add_mul_div_left _ _ hcs,
      Nat.div_eq_of_lt (by omega), Nat.zero_add]
  rw [hD] at hi
  have := Nat.mul_le_mul_right sendCfg.chunkSize (hi : i + 1 ≤ q)
  rw [dataChunk_payload, List.length_take, List.length_drop, hq, Nat.mul_comm sendCfg.chunkSize q]
  rw [Nat.succ_mul] at this
  omega

/-- What the receiver reads of the chunks `_create_chunks` made of a file, its `use_fec` being
    `fec_enabled and fec_config.enabled`, when, if the sender made parity, the receiver has FEC
    enabled and the file is a whole number of chunks: every chunk's DATA message is faithful to
    the state the receiver makes for their header and to the data payloads, which concatenate to
    the file, and under FEC are all one chunk wide. -/
theorem createChunks_faithful (sendCfg : TransferConfig) (sendFec : FECConfig) (fileData : Bytes)
    (b : String) (fecEnabled : Bool) {chunks : List ChunkRecord} (hcs : 0 < sendCfg.chunkSize)
    (hcc : createChunks sendCfg sendFec fileData b (fecEnabled && sendFec.enabled) = some chunks)
    (hmade : (fecEnabled && sendFec.enabled && decide (sendFec.k > 0) &&
      decide (sendFec.r > 0)) = true →
        fec.enabled = true ∧ fileData.length % sendCfg.chunkSize = 0) :
    let useFec := fecEnabled && sendFec.enabled
    let k := if useFec then sendFec.k else 0
    let r := if useFec then sendFec.r else 0
    let hdr := headerState cfg fec nodeId outputDir b chunks.length k r
    let pay := fun c => (dataChunk sendCfg sendFec fileData b useFec c).payload
    let D := (fileData.length + sendCfg.chunkSize - 1) / sendCfg.chunkSize
    hdr.numDataChunks = D ∧ hdr.numData = D ∧ ((List.range D).map pay).flatten = fileData ∧
      ((fecEnabled && sendFec.enabled && decide (sendFec.k > 0) && decide (sendFec.r > 0)) = true →
        0 < D →
        hdr.fecEnabled = true ∧ hdr.k = sendFec.k ∧ hdr.r = sendFec.r) ∧
      (hdr.fecEnabled = true → ∀ c < D, (pay c).length = sendCfg.chunkSize) ∧
      ∀ ch ∈ chunks, Faithful hdr k r pay (dataMsg chunks.length ch) := by
  intro useFec k r hdr pay D
  obtain ⟨hids, hcat⟩ := dataChunks_spec sendCfg sendFec fileData b useFec hcs
  set data := (List.range D).map (dataChunk sendCfg sendFec fileData b useFec)
  have hpay : (List.range D).map pay = data.map ChunkRecord.payload := by
    rw [List.map_map]; rfl
  have hdata : ∀ ch ∈ data, ∃ i < D, ch = dataChunk sendCfg sendFec fileData b useFec i :=
    fun ch hch => by
      obtain ⟨i, hi, rfl⟩ := List.mem_map.mp hch
      exact ⟨i, List.mem_range.mp hi, rfl⟩
  rw [createChunks_eq sendCfg sendFec fileData b useFec hcs, Option.some.injEq] at hcc
  obtain ⟨hb, hN, -, -⟩ := headerState_spec cfg fec nodeId outputDir b chunks.length k r
  have hdataMsg : ∀ i < D, hdr.numDataChunks = D →
      (hdr.fecEnabled = true → (dataChunk sendCfg sendFec fileData b useFec i).blockId = i / hdr.k) →
      Faithful hdr k r pay (dataMsg chunks.length (dataChunk sendCfg sendFec fileData b useFec i)) :=
    fun i hi hnd hblk => ⟨⟨hN.symm, rfl, rfl⟩, fun _ => ⟨rfl, hblk⟩, fun hle =>
      absurd (hnd ▸ (hle : hdr.numDataChunks ≤ i)) (Nat.not_le_of_lt hi)⟩
  split at hcc
  · rename_i hmk
    change data ++ generateFecChunks sendFec data b = chunks at hcc
    obtain ⟨hon, hwhole⟩ := hmade (by simpa [useFec, Bool.and_assoc] using hmk)
    have hmk' := hmk
    simp only [Bool.and_eq_true, decide_eq_true_eq] at hmk'
    obtain ⟨⟨⟨hu, -⟩, hk⟩, hr⟩ := hmk'
    have hkk : k = sendFec.k := by simp only [k, hu, if_true]
    have hrr : r = sendFec.r := by simp only [r, hu, if_true]
    have hdlen : data.length = D := by simp [data]
    have hlen : chunks.length = D + sendFec.r * ((D + sendFec.k - 1) / sendFec.k) := by
      have := congrArg List.length (ids_generateFecChunks data b hk hr)
      rw [List.length_map, List.length_range', hdlen] at this
      rw [← hcc, List.length_append, this, hdlen, Nat.mul_comm]
    rcases Nat.eq_zero_or_pos D with hD0 | hD
    · -- an empty file: no chunk at all
      have hN0 : chunks.length = 0 := by
        rw [hlen, hD0, Nat.zero_add, Nat.div_eq_of_lt (by omega), Nat.mul_zero]
      have hnd : hdr.numDataChunks = 0 := by
        obtain ⟨-, -, -, -, -, h6, h7⟩ := createReceiveState_spec cfg fec nodeId outputDir
          Store.empty b chunks.length k r ""
        cases hf : hdr.fecEnabled
        · exact (h7 hf).trans hN0
        · exact Nat.le_zero.mp (hN0 ▸ (h6 hf).1)
      have hnum : hdr.numData = 0 := by rw [ReceiveState.numData, hnd, if_pos rfl, hN, hN0]
      refine ⟨hnd.trans hD0.symm, hnum.trans hD0.symm, by rw [hpay, hcat], fun _ hD => absurd hD
        (by omega), fun _ c hc => absurd hc (by omega), fun ch hch => ?_⟩
      exact absurd (List.length_pos_of_mem hch) (by omega)
    · -- parity made: the receiver infers the data count back
      have hh : hdr = headerState cfg fec nodeId outputDir b
          (D + sendFec.r * ((D + sendFec.k - 1) / sendFec.k)) sendFec.k sendFec.r := by
        show headerState cfg fec nodeId outputDir b chunks.length k r = _
        rw [hlen, hkk, hrr]
      obtain ⟨hfe, hk', hr', hnd⟩ := headerState_fec cfg fec nodeId outputDir hon b hk hr hD
      rw [← hh] at hfe hk' hr' hnd
      have hnum : hdr.numData = D := by rw [ReceiveState.numData, hnd, if_neg (by omega)]
      have hblock : ∀ blk, ((data.drop (blk * sendFec.k)).take sendFec.k).map
          ChunkRecord.payload = (blockIds hdr blk).map pay := fun blk => by
        rw [blockIds, hk', hnd, ← take_drop_range, show data = (List.range D).map _ from rfl,
          ← List.map_drop, ← List.map_take, List.map_map]
        rfl
      refine ⟨hnd, hnum, by rw [hpay, hcat], fun _ _ => ⟨hfe, hk', hr'⟩, fun _ c hc =>
        dataChunk_length_whole sendCfg sendFec fileData b useFec hcs hwhole hc, fun ch hch => ?_⟩
      rw [← hcc] at hch
      rcases List.mem_append.mp hch with hch | hch
      · obtain ⟨i, hi, rfl⟩ := hdata ch hch
        refine hdataMsg i hi hnd fun _ => ?_
        rw [hk']
        exact (dataChunk_spec sendCfg sendFec fileData b useFec hcs hi).2.2.2.1 hmk
      · obtain ⟨hle, -, hblk, hp, -⟩ := parityChunk_spec hk hr hch
        obtain ⟨blk, -, j, -, rfl⟩ := (mem_generateFecChunks hk hr).mp hch
        refine ⟨⟨hN.symm, hkk.symm, hrr.symm⟩, fun hlt => ?_, fun _ => ⟨hfe, ?_, ?_⟩⟩
        · rw [hnd] at hlt
          exact absurd hlt (by simp only [dataMsg]; omega)
        · rw [hnd, hr', ← hdlen]; exact hblk
        · rw [← hblock]; exact hp
  · rename_i hmk
    have hlen : chunks.length = D := by rw [← hcc, List.length_map, List.length_range]
    have hoff : k = 0 ∨ r = 0 := by
      by_cases hu : useFec = true
      · have hse : sendFec.enabled = true := ((Bool.and_eq_true _ _).mp hu).2
        rw [hu, hse] at hmk
        simp only [Bool.true_and, Bool.and_eq_true, decide_eq_true_eq, not_and] at hmk
        simp only [k, r, hu, if_true]
        omega
      · simp [k, hu]
    obtain ⟨hfe, hnd⟩ := headerState_off cfg fec nodeId outputDir b chunks.length hoff
    replace hnd := hnd.trans hlen
    have hnum : hdr.numData = D := by
      rw [ReceiveState.numData, hnd, hN, hlen]; split <;> rfl
    refine ⟨hnd, hnum, by rw [hpay, hcat], fun hm _ => absurd (by simpa [useFec, Bool.and_assoc]
      using hm) hmk, fun h => absurd h (by rw [hfe]; simp), fun ch hch => ?_⟩
    obtain ⟨i, hi, rfl⟩ := hdata ch (by rw [← hcc] at hch; exact hch)
    exact hdataMsg i hi hnd fun h => absurd h (by rw [hfe]; simp)

/-- The state the receiver makes for the header of the chunks `_create_chunks` made, and the
    data payloads, named once: what the receiving side needs of them. -/
theorem exists_faithfulHeader (sendCfg : TransferConfig) (sendFec : FECConfig) (fileData : Bytes)
    (b : String) (fecEnabled : Bool) {chunks : List ChunkRecord} (hcs : 0 < sendCfg.chunkSize)
    (hcc : createChunks sendCfg sendFec fileData b (fecEnabled && sendFec.enabled) = some chunks)
    (hmade : (fecEnabled && sendFec.enabled && decide (sendFec.k > 0) &&
      decide (sendFec.r > 0)) = true →
        fec.enabled = true ∧ fileData.length % sendCfg.chunkSize = 0) :
    let D := (fileData.length + sendCfg.chunkSize - 1) / sendCfg.chunkSize
    ∃ (hdr : ReceiveState) (k r w : Nat) (pay : Nat → Bytes),
      headerState cfg fec nodeId outputDir hdr.bundleId hdr.totalChunks k r = hdr ∧
      hdr.bundleId = b ∧ hdr.outputPath = outputPathFor outputDir b ∧ hdr.numDataChunks = D ∧
      ((List.range hdr.numData).map pay).flatten = fileData ∧
      (hdr.fecEnabled = true → 0 < hdr.k ∧ 0 < hdr.r) ∧
      ((fecEnabled && sendFec.enabled && decide (sendFec.k > 0) && decide (sendFec.r > 0)) = true →
        0 < D → hdr.fecEnabled = true ∧ hdr.k = sendFec.k ∧ hdr.r = sendFec.r) ∧
      (hdr.fecEnabled = true → ∀ c < hdr.numDataChunks, (pay c).length = w) ∧
      ∀ ch ∈ chunks, Faithful hdr k r pay (dataMsg chunks.length ch) := by
  obtain ⟨hnd, hnum, hflat, hfecOn, hw, hfaith⟩ := createChunks_faithful cfg fec nodeId outputDir
    sendCfg sendFec fileData b fecEnabled hcs hcc hmade
  obtain ⟨hb, hN, hpath, hpos⟩ := headerState_spec cfg fec nodeId outputDir b chunks.length
    (if fecEnabled && sendFec.enabled then sendFec.k else 0)
    (if fecEnabled && sendFec.enabled then sendFec.r else 0)
  exact ⟨_, _, _, _, _, by rw [hb, hN], hb, hpath, hnd, hnum ▸ hflat,
    fun hf => ⟨(hpos hf).1, (hpos hf).2.1⟩, hfecOn, fun hf c hc => hw hf c (hnd ▸ hc), hfaith⟩

/-! ## Any arrivals -/

/-- A DATA message handed to `handle_data`, with what the call reads besides: the sender's
    address text, whether the write of the output file succeeds, and the nonce a `CUSTODY_ACK`
    would carry. -/
structure Arrival where
  msg : DataMsg
  src : String
  writeOk : Bool
  ackNonce : Nat

/-- The receiver after `handle_data` on each arrival in turn. -/
def receive (eng : ReceiveEngine) (as : List Arrival) : ReceiveEngine :=
  as.foldl (fun eng a =>
    (handleData cfg fec nodeId outputDir eng a.msg a.src a.writeOk a.ackNonce).1) eng

theorem Paths.receive {eng : ReceiveEngine} (h : Paths outputDir eng) (as : List Arrival) :
    Paths outputDir (receive cfg fec nodeId outputDir eng as) := by
  induction as generalizing eng with
  | nil => exact h
  | cons a as ih => exact ih (h.handleData cfg fec nodeId outputDir _ _ _ _)

theorem Intact.receive {hdr : ReceiveState} {pay : Nat → Bytes} {k r w : Nat}
    {eng : ReceiveEngine} (hp : Paths outputDir eng) (h : Intact hdr pay eng)
    (hhdr : headerState cfg fec nodeId outputDir hdr.bundleId hdr.totalChunks k r = hdr)
    (hw : hdr.fecEnabled = true → ∀ c < hdr.numDataChunks, (pay c).length = w)
    (as : List Arrival) (has : ∀ a ∈ as, a.msg.bundleId = hdr.bundleId → Faithful hdr k r pay a.msg) :
    Intact hdr pay (receive cfg fec nodeId outputDir eng as) := by
  induction as generalizing eng with
  | nil => exact h
  | cons a as ih =>
    exact ih (hp.handleData cfg fec nodeId outputDir _ _ _ _)
      (h.handleData cfg fec nodeId outputDir hp hhdr hw a.msg (has a (List.mem_cons_self _ _)) _ _ _)
      fun a' ha' => has a' (List.mem_cons_of_mem _ ha')

/-- A fresh receiver fed only the DATA messages of bundle `b` that the sender's chunks make, among
    any others, holds `b` intact against the state the header makes and the data payloads. -/
theorem receive_intact (sendCfg : TransferConfig) (sendFec : FECConfig) (fileData : Bytes)
    (b : String) (fecEnabled : Bool) {chunks : List ChunkRecord} (hcs : 0 < sendCfg.chunkSize)
    (hcc : createChunks sendCfg sendFec fileData b (fecEnabled && sendFec.enabled) = some chunks)
    (hmade : (fecEnabled && sendFec.enabled && decide (sendFec.k > 0) &&
      decide (sendFec.r > 0)) = true →
        fec.enabled = true ∧ fileData.length % sendCfg.chunkSize = 0)
    (eng : ReceiveEngine) (hp : Paths outputDir eng) (hnew : eng.activeReceives.get? b = none)
    (hfile : eng.files.get? (outputPathFor outputDir b) = none) (as : List Arrival)
    (has : ∀ a ∈ as, a.msg.bundleId = b → ∃ ch ∈ chunks, a.msg = dataMsg chunks.length ch) :
    ∃ (hdr : ReceiveState) (pay : Nat → Bytes), hdr.outputPath = outputPathFor outputDir b ∧
      ((List.range hdr.numData).map pay).flatten = fileData ∧
      Intact hdr pay (receive cfg fec nodeId outputDir eng as) := by
  obtain ⟨hdr, k, r, w, pay, hhdr, hb, hpath, -, hflat, -, -, hw, hfaith⟩ :=
    exists_faithfulHeader cfg fec nodeId outputDir sendCfg sendFec fileData b fecEnabled hcs hcc hmade
  refine ⟨hdr, pay, hpath, hflat, Intact.receive cfg fec nodeId outputDir hp
    ⟨fun st hst => ?_, fun out ho => ?_⟩ hhdr hw as fun a ha hab => ?_⟩
  · rw [hb, hnew] at hst; cases hst
  · rw [hpath, hfile] at ho; cases ho
  · obtain ⟨ch, hch, he⟩ := has a ha (hab.trans hb)
    rw [he]; exact hfaith ch hch

/-- Whatever arrives — in any order, repeated, lost, between other bundles' messages, with
    writes failing or not — when the DATA messages of bundle `b` are those of the chunks
    `_create_chunks` made of a file, and, if it made parity, the receiver has FEC enabled and
    the file is a whole number of chunks, the only thing the receiver ever writes at `b`'s path
    is that file. -/
theorem receive_writes_only_sent_file (sendCfg : TransferConfig) (sendFec : FECConfig)
    (fileData : Bytes) (b : String) (fecEnabled : Bool) {chunks : List ChunkRecord}
    (hcs : 0 < sendCfg.chunkSize)
    (hcc : createChunks sendCfg sendFec fileData b (fecEnabled && sendFec.enabled) = some chunks)
    (hmade : (fecEnabled && sendFec.enabled && decide (sendFec.k > 0) &&
      decide (sendFec.r > 0)) = true →
        fec.enabled = true ∧ fileData.length % sendCfg.chunkSize = 0)
    (eng : ReceiveEngine) (hp : Paths outputDir eng) (hnew : eng.activeReceives.get? b = none)
    (hfile : eng.files.get? (outputPathFor outputDir b) = none) (as : List Arrival)
    (has : ∀ a ∈ as, a.msg.bundleId = b → ∃ ch ∈ chunks, a.msg = dataMsg chunks.length ch) :
    (receive cfg fec nodeId outputDir eng as).files.get? (outputPathFor outputDir b) = none ∨
      (receive cfg fec nodeId outputDir eng as).files.get? (outputPathFor outputDir b) =
        some fileData := by
  obtain ⟨hdr, pay, hpath, hflat, hI⟩ := receive_intact cfg fec nodeId outputDir sendCfg sendFec
    fileData b fecEnabled hcs hcc hmade eng hp hnew hfile as has
  cases hout : (receive cfg fec nodeId outputDir eng as).files.get? (outputPathFor outputDir b) with
  | none => exact Or.inl rfl
  | some out => exact Or.inr (by rw [← hflat, hI.file out (hpath ▸ hout)])

/-- The 3-byte file in chunks of 1 byte under the default FEC at both ends: its five chunks
    arriving last first, then in order, every write failing. -/
theorem receive_writes_only_sent_file_reversed :
    ∃ chunks, createChunks { chunkSize := 1 } {} [1, 2, 3] "b" true = some chunks ∧
      ((receive {} {} "B" "received" {} ((chunks.reverse ++ chunks).map fun ch =>
          ⟨dataMsg chunks.length ch, "A", false, 0⟩)).files.get?
            (outputPathFor "received" "b") = none ∨
        (receive {} {} "B" "received" {} ((chunks.reverse ++ chunks).map fun ch =>
          ⟨dataMsg chunks.length ch, "A", false, 0⟩)).files.get?
            (outputPathFor "received" "b") = some [1, 2, 3]) :=
  ⟨_, rfl, receive_writes_only_sent_file {} {} "B" "received" { chunkSize := 1 } {} [1, 2, 3] "b"
    true (by decide) rfl (fun _ => ⟨rfl, rfl⟩) {} (paths_empty "received") rfl rfl _
    fun a ha _ => by
      obtain ⟨ch, hch, rfl⟩ := List.mem_map.mp ha
      exact ⟨ch, (List.mem_append.mp hch).elim List.mem_reverse.mp id, rfl⟩⟩

/-! ## A failed write -/

/-- `handle_data` on a message of another bundle leaves a state and the file at its path as they
    are; on a message of the state's bundle whose id it has received, too. -/
theorem handleData_frozen {eng : ReceiveEngine} (hp : Paths outputDir eng) {b : String}
    {st : ReceiveState} (hst : eng.activeReceives.get? b = some st) (msg : DataMsg) (src : String)
    (writeOk : Bool) (ackNonce : Nat) (hm : msg.bundleId = b → msg.chunkId ∈ st.receivedChunks) :
    let e := (handleData cfg fec nodeId outputDir eng msg src writeOk ackNonce).1
    e.activeReceives.get? b = some st ∧
      e.files.get? (outputPathFor outputDir b) = eng.files.get? (outputPathFor outputDir b) := by
  intro e
  set s := stateFor cfg fec nodeId outputDir eng msg src
  by_cases hb : msg.bundleId = b
  · have hs : s.2 = st := by
      rcases stateFor_cases cfg fec nodeId outputDir eng msg src with hg | ⟨hg, -⟩ <;>
        rw [hb, hst] at hg
      · exact (Option.some.inj hg).symm
      · cases hg
    rcases handleData_cases cfg fec nodeId outputDir eng msg src writeOk ackNonce with
      ⟨-, ha, hf⟩ | ⟨hn, -⟩
    · exact ⟨by rw [ha, Dict.get?_insert, if_pos hb.symm, hs], by rw [hf]⟩
    · exact absurd (hs ▸ hm hb) hn
  · have htp := (ReceiveState.layout_of_shape (takeChunk_shape s.2 msg s.1)).2.2.2.2.2.1.trans
      (outputPath_stateFor cfg fec nodeId outputDir hp msg src)
    have hne : outputPathFor outputDir b ≠ (takeChunk s.2 msg s.1).1.outputPath := fun h =>
      hb (outputPathFor_inj outputDir (h.trans htp)).symm
    rcases handleData_cases cfg fec nodeId outputDir eng msg src writeOk ackNonce with
      ⟨-, ha, hf⟩ | ⟨-, hc⟩
    · exact ⟨by rw [ha, Dict.get?_insert, if_neg (Ne.symm hb), hst], by rw [hf]⟩
    · split_ifs at hc
      · exact ⟨by rw [hc.1, Dict.get?_insert, if_neg (Ne.symm hb), hst],
          by rw [hc.2, Dict.get?_insert, if_neg hne]⟩
      · exact ⟨by rw [hc.1, Dict.get?_insert, if_neg (Ne.symm hb), hst], by rw [hc.2]⟩

/-- Once a state has received every chunk id below its total, every later DATA message of its
    bundle with such an id is taken as a repeat: whatever arrives, the state and the file at its
    path stay as they are. So a state whose write failed when its last chunk came in is never
    delivered, and its file never written, however often the sender retransmits. -/
theorem receive_frozen_once_all_received {eng : ReceiveEngine} (hp : Paths outputDir eng)
    {b : String} {st : ReceiveState} (hst : eng.activeReceives.get? b = some st)
    (hall : ∀ c < st.totalChunks, c ∈ st.receivedChunks) (as : List Arrival)
    (has : ∀ a ∈ as, a.msg.bundleId = b → a.msg.chunkId < st.totalChunks) :
    (receive cfg fec nodeId outputDir eng as).activeReceives.get? b = some st ∧
      (receive cfg fec nodeId outputDir eng as).files.get? (outputPathFor outputDir b) =
        eng.files.get? (outputPathFor outputDir b) := by
  induction as generalizing eng with
  | nil => exact ⟨hst, rfl⟩
  | cons a as ih =>
    obtain ⟨h₁, h₂⟩ := handleData_frozen cfg fec nodeId outputDir hp hst a.msg a.src a.writeOk
      a.ackNonce fun hb => hall _ (has a (List.mem_cons_self _ _) hb)
    obtain ⟨h₃, h₄⟩ := ih (hp.handleData cfg fec nodeId outputDir _ _ _ _) h₁
      fun a' ha' => has a' (List.mem_cons_of_mem _ ha')
    exact ⟨h₃, h₄.trans h₂⟩

/-- A one-chunk bundle whose write fails on its only chunk: the retransmission of that chunk,
    with a write that would succeed, writes nothing. -/
theorem failed_write_not_retried :
    (receive {} {} "B" "received"
      (receive {} {} "B" "received" {} [⟨⟨"b", 0, 1, 0, 0, 0, 0, [7]⟩, "A", false, 0⟩])
      [⟨⟨"b", 0, 1, 0, 0, 0, 0, [7]⟩, "A", true, 1⟩]).files.get? (outputPathFor "received" "b") =
      none :=
  (@receive_frozen_once_all_received {} {} "B" "received"
    (receive {} {} "B" "received" {} [⟨⟨"b", 0, 1, 0, 0, 0, 0, [7]⟩, "A", false, 0⟩])
    ((paths_empty "received").receive {} {} "B" "received" _) "b"
    { bundleId := "b", totalChunks := 1, fecEnabled := false, k := 0, r := 0,
      outputPath := outputPathFor "received" "b", numDataChunks := 1, receivedChunks := {0},
      dataChunks := (∅ : Dict Nat Bytes).insert 0 [7] } rfl (by decide) _ (by decide)).2.trans rfl

end ReceiveEngine

end Courier