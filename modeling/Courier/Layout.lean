import Courier.Codec
import Courier.SendEngine
import Courier.ReceiveEngine

/-
  Courier: the chunk layout `_create_chunks` produces and the one the receiver reads back.

  `xorInto` is the zero-padded XOR of two payloads (`getD_xorInto`), so the receiver's
  `_xor_bytes(base, others)` is the zero-padded XOR of `base :: others` and `_xor_chunks` that of
  a block (`xorBytes_eq_paddedXor`, `xorChunks_eq_paddedXor`), `paddedXor` being that XOR in the
  spec's words; a block's parity XORed with every payload but a longest one gives that one back
  (`xorBytes_xorChunks_recover`).

  `createChunks_layout`: for a positive `chunk_size`, the chunks of a file are numbered
  `0 … N - 1`; the first `D = ⌈|C| / chunk_size⌉` are data chunks of 1 to `chunk_size` bytes
  that concatenate to the file, and under FEC each later one is a parity chunk of block
  `(id - D) / r` carrying that block's `paddedXor`; every checksum is the payload's CRC-32 and
  every DATA message of a chunk is at most `40 + chunk_size` bytes on the wire;
  `createChunks_fec_spec` splits the same layout under FEC as the receive path reads it.
  `inferBlockAndDataCount_spec`: for `k, r ≥ 1` the receiver's inference returns exactly the
  pair `(⌈D / k⌉, D)` with `T = D + r * ⌈D / k⌉`, which is unique, and so reads back the
  sender's data count.
-/

namespace Courier

/-! ## The zero-padded XOR -/

/-- The zero-padded XOR of payloads: as long as the longest one, its byte `i` the XOR of every
    payload's byte `i`, a payload that ends before `i` counting as `0` there. -/
def paddedXor (ps : List Bytes) : Bytes :=
  (List.range (ps.foldl (fun m p => max m p.length) 0)).map fun i =>
    ps.foldl (fun x p => x ^^^ p.getD i 0) 0

@[simp] theorem xorInto_nil_left (p : Bytes) : xorInto [] p = p := by simp [xorInto]

@[simp] theorem xorInto_nil_right (a : Bytes) : xorInto a [] = a := by simp [xorInto]

@[simp] theorem xorInto_cons_cons (a p : Nat) (as ps : Bytes) :
    xorInto (a :: as) (p :: ps) = (a ^^^ p) :: xorInto as ps := by simp [xorInto]

theorem length_xorInto (a p : Bytes) : (xorInto a p).length = max a.length p.length := by
  induction a generalizing p with
  | nil => simp
  | cons x a ih => cases p <;> simp [ih, Nat.succ_max_succ]

theorem getD_xorInto (a p : Bytes) (i : Nat) :
    (xorInto a p).getD i 0 = a.getD i 0 ^^^ p.getD i 0 := by
  induction a generalizing p i with
  | nil => simp
  | cons x a ih =>
    cases p with
    | nil => simp
    | cons y p =>
      cases i <;> simp only [xorInto_cons_cons, List.getD_cons_zero, List.getD_cons_succ, ih]

theorem length_foldl_xorInto (ps : List Bytes) (a : Bytes) :
    (ps.foldl xorInto a).length = ps.foldl (fun m p => max m p.length) a.length := by
  induction ps generalizing a with
  | nil => rfl
  | cons p ps ih => rw [List.foldl_cons, ih, length_xorInto]; rfl

theorem getD_foldl_xorInto (ps : List Bytes) (a : Bytes) (i : Nat) :
    (ps.foldl xorInto a).getD i 0 = ps.foldl (fun x p => x ^^^ p.getD i 0) (a.getD i 0) := by
  induction ps generalizing a with
  | nil => rfl
  | cons p ps ih => rw [List.foldl_cons, ih, getD_xorInto]; rfl

theorem le_foldl_max (ps : List Bytes) (m : Nat) :
    m ≤ ps.foldl (fun m p => max m p.length) m ∧
      ∀ p ∈ ps, p.length ≤ ps.foldl (fun m p => max m p.length) m := by
  induction ps generalizing m with
  | nil => simp
  | cons q ps ih =>
    obtain ⟨h₁, h₂⟩ := ih (max m q.length)
    refine ⟨(le_max_left _ _).trans h₁, fun p hp => ?_⟩
    rcases List.mem_cons.mp hp with rfl | hp
    · exact (le_max_right _ _).trans h₁
    · exact h₂ p hp

/-- Past the end of every payload the XOR adds nothing. -/
theorem foldl_xor_of_length_le (ps : List Bytes) (i x : Nat) (h : ∀ p ∈ ps, p.length ≤ i) :
    ps.foldl (fun x p => x ^^^ p.getD i 0) x = x := by
  induction ps generalizing x with
  | nil => rfl
  | cons p ps ih =>
    rw [List.foldl_cons, List.getD_eq_default _ _ (h p (List.mem_cons_self _ _)), Nat.xor_zero]
    exact ih x fun q hq => h q (List.mem_cons_of_mem _ hq)

theorem length_paddedXor (ps : List Bytes) :
    (paddedXor ps).length = ps.foldl (fun m p => max m p.length) 0 := by
  simp [paddedXor]

theorem getD_paddedXor (ps : List Bytes) (i : Nat) :
    (paddedXor ps).getD i 0 = ps.foldl (fun x p => x ^^^ p.getD i 0) 0 := by
  by_cases hi : i < ps.foldl (fun m p => max m p.length) 0
  · simp [paddedXor, hi]
  · rw [List.getD_eq_default _ _ (by rw [length_paddedXor]; omega),
      foldl_xor_of_length_le ps i 0 fun p hp => ((le_foldl_max ps 0).2 p hp).trans (by omega)]

/-- Two byte strings of one length that agree at every index are equal. -/
theorem eq_of_getD {l₁ l₂ : Bytes} (hl : l₁.length = l₂.length)
    (h : ∀ i, l₁.getD i 0 = l₂.getD i 0) : l₁ = l₂ :=
  List.ext_getElem hl fun i h₁ h₂ => by simpa [List.getD_eq_getElem?_getD, h₁, h₂] using h i

/-- `_xor_bytes(base, others)` is the zero-padded XOR of `base :: others`. -/
theorem xorBytes_eq_paddedXor (p : Bytes) (qs : List Bytes) :
    ReceiveEngine.xorBytes p qs = paddedXor (p :: qs) := by
  refine eq_of_getD ?_ fun i => ?_
  · rw [ReceiveEngine.xorBytes, length_foldl_xorInto, length_paddedXor, List.foldl_cons,
      Nat.zero_max]
  · rw [ReceiveEngine.xorBytes, getD_foldl_xorInto, getD_paddedXor, List.foldl_cons, Nat.zero_xor]

/-- `_xor_chunks` runs the loop of `_xor_bytes` over the payloads. -/
theorem xorChunks_cons (c : ChunkRecord) (cs : List ChunkRecord) :
    xorChunks (c :: cs) = ReceiveEngine.xorBytes c.payload (cs.map ChunkRecord.payload) :=
  (List.foldl_map ChunkRecord.payload xorInto cs c.payload).symm

/-- `_xor_chunks` is the zero-padded XOR of the block's payloads. -/
theorem xorChunks_eq_paddedXor (cs : List ChunkRecord) :
    xorChunks cs = paddedXor (cs.map ChunkRecord.payload) := by
  cases cs with
  | nil => rfl
  | cons c cs => rw [xorChunks_cons, xorBytes_eq_paddedXor, List.map_cons]

theorem foldl_max_le {ps : List Bytes} {m n : Nat} (h : ∀ p ∈ ps, p.length ≤ n) (hm : m ≤ n) :
    ps.foldl (fun m p => max m p.length) m ≤ n := by
  induction ps generalizing m with
  | nil => exact hm
  | cons p ps ih =>
    exact ih (fun q hq => h q (List.mem_cons_of_mem _ hq)) (max_le hm (h p (List.mem_cons_self _ _)))

theorem length_paddedXor_le (ps : List Bytes) {n : Nat} (h : ∀ p ∈ ps, p.length ≤ n) :
    (paddedXor ps).length ≤ n := by
  rw [length_paddedXor]
  exact foldl_max_le h (Nat.zero_le n)

/-- An XOR fold started at `a` is `a` XOR the fold started at `0`. -/
theorem foldl_xor_init {α : Type} (g : α → Nat) (l : List α) (a : Nat) :
    l.foldl (fun x c => x ^^^ g c) a = a ^^^ l.foldl (fun x c => x ^^^ g c) 0 := by
  induction l generalizing a with
  | nil => exact (Nat.xor_zero a).symm
  | cons c l ih => rw [List.foldl_cons, List.foldl_cons, ih, ih (0 ^^^ g c), Nat.zero_xor, Nat.xor_assoc]

/-- An XOR fold over two lists is the XOR of the two folds. -/
theorem foldl_xor_append {α : Type} (g : α → Nat) (l₁ l₂ : List α) :
    (l₁ ++ l₂).foldl (fun x c => x ^^^ g c) 0 =
      l₁.foldl (fun x c => x ^^^ g c) 0 ^^^ l₂.foldl (fun x c => x ^^^ g c) 0 := by
  rw [List.foldl_append, foldl_xor_init]

/-- Taking element `i` out of an XOR fold takes its term out. -/
theorem foldl_xor_eraseIdx {α : Type} (g : α → Nat) (l : List α) {i : Nat} (hi : i < l.length) :
    l.foldl (fun x c => x ^^^ g c) 0 = g l[i] ^^^ (l.eraseIdx i).foldl (fun x c => x ^^^ g c) 0 := by
  conv_lhs => rw [← List.take_append_drop i l, List.drop_eq_getElem_cons hi]
  rw [List.eraseIdx_eq_take_drop_succ, foldl_xor_append, foldl_xor_append, List.foldl_cons,
    Nat.zero_xor, foldl_xor_init g _ (g l[i])]
  ac_rfl

/-- An XOR fold splits over a partition of the list. -/
theorem foldl_xor_filter {α : Type} (g : α → Nat) (q : α → Bool) (l : List α) :
    l.foldl (fun x c => x ^^^ g c) 0 = (l.filter q).foldl (fun x c => x ^^^ g c) 0 ^^^
      (l.filter fun c => !q c).foldl (fun x c => x ^^^ g c) 0 := by
  induction l with
  | nil => exact (Nat.xor_zero 0).symm
  | cons c l ih =>
    rw [List.foldl_cons, foldl_xor_init, ih, Nat.zero_xor]
    cases hq : q c
    · rw [List.filter_cons_of_neg (by simp [hq]), List.filter_cons_of_pos (by simp [hq]),
        List.foldl_cons, Nat.zero_xor, foldl_xor_init _ _ (g c)]
      ac_rfl
    · rw [List.filter_cons_of_pos (by simp [hq]), List.filter_cons_of_neg (by simp [hq]),
        List.foldl_cons, Nat.zero_xor, foldl_xor_init _ _ (g c)]
      ac_rfl

/-- The zero-padded XOR of a block, XORed with every payload but a longest one, gives that one
    back. -/
theorem xorBytes_paddedXor_eraseIdx (ps : List Bytes) {i : Nat} (hi : i < ps.length)
    (hmax : ∀ q ∈ ps, q.length ≤ ps[i].length) :
    ReceiveEngine.xorBytes (paddedXor ps) (ps.eraseIdx i) = ps[i] := by
  have hL : ps.foldl (fun m p => max m p.length) 0 = ps[i].length :=
    le_antisymm (foldl_max_le hmax (Nat.zero_le _)) ((le_foldl_max ps 0).2 _ (List.getElem_mem hi))
  refine eq_of_getD ?_ fun j => ?_
  · rw [ReceiveEngine.xorBytes, length_foldl_xorInto, length_paddedXor, hL]
    exact le_antisymm (foldl_max_le (fun q hq => hmax q (List.mem_of_mem_eraseIdx hq)) le_rfl)
      (le_foldl_max _ _).1
  · rw [ReceiveEngine.xorBytes, getD_foldl_xorInto, getD_paddedXor,
      foldl_xor_init (fun p : Bytes => p.getD j 0) (ps.eraseIdx i),
      foldl_xor_eraseIdx (fun p : Bytes => p.getD j 0) ps hi, Nat.xor_cancel_right]

/-- `_xor_bytes(p, qs)` is the zero-padded XOR of `p :: qs`; `_xor_chunks` over chunks with
    payloads `p :: qs` gives the same bytes; and so `_xor_bytes(_xor_chunks(ps), ps without p_i)`
    is `p_i` for every longest `p_i`. -/
theorem xorBytes_xorChunks_recover :
    (∀ (p : Bytes) (qs : List Bytes), ReceiveEngine.xorBytes p qs = paddedXor (p :: qs)) ∧
      (∀ (c : ChunkRecord) (cs : List ChunkRecord),
        xorChunks (c :: cs) = ReceiveEngine.xorBytes c.payload (cs.map ChunkRecord.payload)) ∧
      ∀ (cs : List ChunkRecord) (i : Nat) (hi : i < cs.length),
        (∀ c ∈ cs, c.payload.length ≤ cs[i].payload.length) →
        ReceiveEngine.xorBytes (xorChunks cs) ((cs.map ChunkRecord.payload).eraseIdx i) =
          cs[i].payload := by
  refine ⟨xorBytes_eq_paddedXor, xorChunks_cons, fun cs i hi hmax => ?_⟩
  have hi' : i < (cs.map ChunkRecord.payload).length := by rw [List.length_map]; exact hi
  rw [xorChunks_eq_paddedXor, xorBytes_paddedXor_eraseIdx _ hi' ?_, List.getElem_map]
  rw [List.getElem_map]
  exact List.forall_mem_map.mpr hmax

/-- The block `[1, 2, 3]`, `[4]`, `[5, 6]` with its longest chunk lost: the parity XORed with
    the other two payloads is `[1, 2, 3]`. -/
theorem xorBytes_xorChunks_recover_first :
    let cs : List ChunkRecord :=
      [⟨"b", 0, false, 0, 3, 1, [1, 2, 3], 0, 0⟩, ⟨"b", 1, false, 0, 3, 1, [4], 0, 0⟩,
        ⟨"b", 2, false, 0, 3, 1, [5, 6], 0, 0⟩]
    ∃ hi : 0 < cs.length, (∀ c ∈ cs, c.payload.length ≤ cs[0].payload.length) ∧
      ReceiveEngine.xorBytes (xorChunks cs) ((cs.map ChunkRecord.payload).eraseIdx 0) =
        [1, 2, 3] :=
  ⟨by decide, by decide, xorBytes_xorChunks_recover.2.2 _ 0 (by decide) (by decide)⟩

/-! ## Data chunks -/

/-- Data chunk `i` is the `i`-th slice of `chunk_size` bytes. -/
theorem dataChunk_payload (cfg : TransferConfig) (fec : FECConfig) (fileData : Bytes)
    (bundleId : String) (fecEnabled : Bool) (i : Nat) :
    (dataChunk cfg fec fileData bundleId fecEnabled i).payload =
      (fileData.drop (i * cfg.chunkSize)).take cfg.chunkSize := by
  simp only [dataChunk]
  rw [List.take_eq_take, List.length_drop]
  omega

theorem flatten_slices (l : Bytes) (n D : Nat) :
    ((List.range D).map fun i => (l.drop (i * n)).take n).flatten = l.take (D * n) := by
  induction D with
  | zero => simp
  | succ D ih =>
    rw [List.range_succ, List.map_append, List.flatten_append, ih, Nat.succ_mul]
    simp [List.take_add]

theorem le_ceil_mul {n : Nat} (hn : 0 < n) (len : Nat) : len ≤ (len + n - 1) / n * n := by
  have h₁ := Nat.div_add_mod (len + n - 1) n
  have h₂ := Nat.mod_lt (len + n - 1) hn
  rw [Nat.mul_comm] at h₁
  generalize (len + n - 1) / n * n = q at h₁
  omega

theorem lt_of_lt_ceil {n len i : Nat} (hn : 0 < n) (hi : i < (len + n - 1) / n) :
    i * n < len := by
  have h := (Nat.le_div_iff_mul_le hn).mp hi
  rw [Nat.succ_mul] at h
  omega

section DataChunks

variable (cfg : TransferConfig) (fec : FECConfig) (fileData : Bytes) (bundleId : String)
  (fecEnabled : Bool)

/-- Data chunk `i` of a file of more than `i` slices: a data chunk of 1 to `chunk_size` bytes
    under its own id, of block `i / k` when FEC is used, checksummed. -/
theorem dataChunk_spec (hcs : 0 < cfg.chunkSize) {i : Nat}
    (hi : i < (fileData.length + cfg.chunkSize - 1) / cfg.chunkSize) :
    let c := dataChunk cfg fec fileData bundleId fecEnabled i
    c.chunkId = i ∧ c.checksum = crc32 c.payload ∧ c.isParity = false ∧
      ((fecEnabled && fec.enabled && decide (fec.k > 0) && decide (fec.r > 0)) = true →
        c.blockId = i / fec.k) ∧ 0 < c.payload.length ∧ c.payload.length ≤ cfg.chunkSize := by
  have hlt := lt_of_lt_ceil hcs hi
  refine ⟨rfl, rfl, rfl, fun hu => ?_, ?_⟩
  · simp only [Bool.and_eq_true, decide_eq_true_eq] at hu
    simp [dataChunk, hu.1.1.1, hu.1.2]
  · rw [dataChunk_payload]
    simp only [List.length_take, List.length_drop]
    omega

/-- The data chunks are numbered `0 … D - 1` and their payloads concatenate to the file. -/
theorem dataChunks_spec (hcs : 0 < cfg.chunkSize) :
    let data := (List.range ((fileData.length + cfg.chunkSize - 1) / cfg.chunkSize)).map
      (dataChunk cfg fec fileData bundleId fecEnabled)
    data.map ChunkRecord.chunkId =
        List.range ((fileData.length + cfg.chunkSize - 1) / cfg.chunkSize) ∧
      (data.map ChunkRecord.payload).flatten = fileData := by
  refine ⟨by simp [Function.comp_def, dataChunk], ?_⟩
  have : ChunkRecord.payload ∘ dataChunk cfg fec fileData bundleId fecEnabled =
      fun i => (fileData.drop (i * cfg.chunkSize)).take cfg.chunkSize :=
    funext (dataChunk_payload cfg fec fileData bundleId fecEnabled)
  rw [List.map_map, this, flatten_slices, List.take_of_length_le (le_ceil_mul hcs _)]

end DataChunks

/-! ## Parity chunks -/

theorem mem_generateFecChunks {fec : FECConfig} {data : List ChunkRecord} {bundleId : String}
    {c : ChunkRecord} (hk : 0 < fec.k) (hr : 0 < fec.r) :
    c ∈ generateFecChunks fec data bundleId ↔
      ∃ blockId < (data.length + fec.k - 1) / fec.k, ∃ j < fec.r,
        c = { bundleId, chunkId := data.length + blockId * fec.r + j, isParity := true, blockId,
              k := fec.k, r := fec.r,
              payload := xorChunks ((data.drop (blockId * fec.k)).take fec.k),
              checksum := crc32 (xorChunks ((data.drop (blockId * fec.k)).take fec.k)) } := by
  simp only [generateFecChunks, Nat.pos_iff_ne_zero.mp hk, Nat.pos_iff_ne_zero.mp hr, or_self,
    if_false, List.mem_flatMap, List.mem_range, List.mem_map]
  constructor
  · rintro ⟨b, hb, j, hj, rfl⟩; exact ⟨b, hb, j, hj, rfl⟩
  · rintro ⟨b, hb, j, hj, rfl⟩; exact ⟨b, hb, j, hj, rfl⟩

theorem ids_flatMap_parity (D r m : Nat) (f : Nat → Nat → ChunkRecord)
    (hf : ∀ b j, (f b j).chunkId = D + b * r + j) :
    ((List.range m).flatMap fun b => (List.range r).map (f b)).map ChunkRecord.chunkId =
      List.range' D (m * r) := by
  induction m with
  | zero => simp
  | succ m ih =>
    rw [List.range_succ, List.flatMap_append, List.map_append, ih, List.flatMap_singleton,
      List.map_map, Nat.succ_mul, Nat.add_comm (m * r) r, ← List.range'_append, Nat.one_mul,
      List.range'_eq_map_range (D + m * r)]
    congr 2
    funext j
    exact hf m j

theorem ids_generateFecChunks {fec : FECConfig} (data : List ChunkRecord) (bundleId : String)
    (hk : 0 < fec.k) (hr : 0 < fec.r) :
    (generateFecChunks fec data bundleId).map ChunkRecord.chunkId =
      List.range' data.length ((data.length + fec.k - 1) / fec.k * fec.r) := by
  simp only [generateFecChunks, Nat.pos_iff_ne_zero.mp hk, Nat.pos_iff_ne_zero.mp hr, or_self,
    if_false]
  exact ids_flatMap_parity _ _ _ _ fun _ _ => rfl

/-- A parity chunk: numbered after the data chunks, of block `(id - D) / r`, carrying the
    zero-padded XOR of the block's data payloads, checksummed. -/
theorem parityChunk_spec {fec : FECConfig} {data : List ChunkRecord} {bundleId : String}
    {c : ChunkRecord} (hk : 0 < fec.k) (hr : 0 < fec.r)
    (hc : c ∈ generateFecChunks fec data bundleId) :
    data.length ≤ c.chunkId ∧ c.isParity = true ∧ c.blockId = (c.chunkId - data.length) / fec.r ∧
      c.payload = paddedXor (((data.drop (c.blockId * fec.k)).take fec.k).map
        ChunkRecord.payload) ∧ c.checksum = crc32 c.payload := by
  obtain ⟨b, -, j, hj, rfl⟩ := (mem_generateFecChunks hk hr).mp hc
  refine ⟨show data.length ≤ data.length + b * fec.r + j by omega, rfl, ?_,
    xorChunks_eq_paddedXor _, rfl⟩
  show b = (data.length + b * fec.r + j - data.length) / fec.r
  rw [Nat.add_assoc, Nat.add_sub_cancel_left, Nat.add_comm, Nat.add_mul_div_right _ _ hr,
    Nat.div_eq_of_lt hj, Nat.zero_add]

/-! ## The layout -/

/-- The chunks of a file, for a positive `chunk_size`: the data chunks, then the parity chunks
    when FEC is used. -/
theorem createChunks_eq (cfg : TransferConfig) (fec : FECConfig) (fileData : Bytes)
    (bundleId : String) (fecEnabled : Bool) (hcs : 0 < cfg.chunkSize) :
    createChunks cfg fec fileData bundleId fecEnabled =
      let data := (List.range ((fileData.length + cfg.chunkSize - 1) / cfg.chunkSize)).map
        (dataChunk cfg fec fileData bundleId fecEnabled)
      some (if fecEnabled && fec.enabled && decide (fec.k > 0) && decide (fec.r > 0) then
        data ++ generateFecChunks fec data bundleId else data) := by
  simp only [createChunks, Nat.pos_iff_ne_zero.mp hcs, if_false]
  split <;> rfl

/-- The layout of `_create_chunks` for a positive `chunk_size`. With
    `D = ⌈|C| / chunk_size⌉`, the ids are `0 … N - 1` in order, `N = D + r * ⌈D / k⌉` under FEC
    and `D` otherwise; the first `D` chunks are data chunks of 1 to `chunk_size` bytes, of block
    `id / k` under FEC, whose payloads concatenate to the file; every later chunk is a parity
    chunk of block `(id - D) / r` carrying the zero-padded XOR of that block's data payloads;
    every checksum is the payload's CRC-32, and every DATA message of a chunk serializes to at
    most `40 + chunk_size` bytes. -/
theorem createChunks_layout (cfg : TransferConfig) (fec : FECConfig) (fileData : Bytes)
    (bundleId : String) (fecEnabled : Bool) (hcs : 0 < cfg.chunkSize) :
    let D := (fileData.length + cfg.chunkSize - 1) / cfg.chunkSize
    let used := fecEnabled && fec.enabled && decide (fec.k > 0) && decide (fec.r > 0)
    let N := if used then D + fec.r * ((D + fec.k - 1) / fec.k) else D
    ∃ chunks, createChunks cfg fec fileData bundleId fecEnabled = some chunks ∧
      chunks.map ChunkRecord.chunkId = List.range N ∧
      ((chunks.take D).map ChunkRecord.payload).flatten = fileData ∧
      (∀ c ∈ chunks, c.checksum = crc32 c.payload ∧
        ∀ d, serializeMessage (SendEngine.chunkMsg N c) = some d →
          d.length ≤ 40 + cfg.chunkSize) ∧
      (∀ c ∈ chunks, c.chunkId < D → c.isParity = false ∧
        (used → c.blockId = c.chunkId / fec.k) ∧ 0 < c.payload.length ∧
        c.payload.length ≤ cfg.chunkSize) ∧
      (∀ c ∈ chunks, D ≤ c.chunkId → c.isParity = true ∧ c.blockId = (c.chunkId - D) / fec.r ∧
        c.payload = paddedXor ((((chunks.take D).drop (c.blockId * fec.k)).take fec.k).map
          ChunkRecord.payload)) := by
  intro D used N
  obtain ⟨hids, hcat⟩ := dataChunks_spec cfg fec fileData bundleId fecEnabled hcs
  set data := (List.range D).map (dataChunk cfg fec fileData bundleId fecEnabled)
  have hlen : data.length = D := by simp [data]
  have hdata : ∀ c ∈ data, c.chunkId < D ∧ c.checksum = crc32 c.payload ∧ c.isParity = false ∧
      (used → c.blockId = c.chunkId / fec.k) ∧ 0 < c.payload.length ∧
      c.payload.length ≤ cfg.chunkSize := by
    intro c hc
    obtain ⟨i, hi, rfl⟩ := List.mem_map.mp hc
    obtain ⟨h₁, h₂⟩ := dataChunk_spec cfg fec fileData bundleId fecEnabled hcs (List.mem_range.mp hi)
    exact ⟨h₁ ▸ List.mem_range.mp hi, h₂⟩
  have hwire : ∀ c : ChunkRecord, c.payload.length ≤ cfg.chunkSize →
      ∀ d, serializeMessage (SendEngine.chunkMsg N c) = some d → d.length ≤ 40 + cfg.chunkSize :=
    fun c hc d hd => by
      have := (serializeMessage_data_spec hd).2
      dsimp only at this
      omega
  rw [createChunks_eq cfg fec fileData bundleId fecEnabled hcs]
  refine ⟨_, rfl, ?_⟩
  by_cases hu : used = true
  · have hN : N = D + fec.r * ((D + fec.k - 1) / fec.k) := if_pos hu
    rw [if_pos (show (fecEnabled && fec.enabled && decide (fec.k > 0) &&
      decide (fec.r > 0)) = true from hu), List.take_left' hlen]
    simp only [used, Bool.and_eq_true, decide_eq_true_eq] at hu
    obtain ⟨⟨-, hk⟩, hr⟩ := hu
    refine ⟨?_, hcat, fun c hc => ?_, fun c hc hlt => ?_, fun c hc hge => ?_⟩
    · rw [List.map_append, hids, ids_generateFecChunks data bundleId hk hr, hlen, hN,
        List.range_add, List.range'_eq_map_range, Nat.mul_comm]
    · rcases List.mem_append.mp hc with hc | hc
      · obtain ⟨-, h₁, -, -, -, h₂⟩ := hdata c hc
        exact ⟨h₁, hwire c h₂⟩
      · obtain ⟨-, -, -, hp, hs⟩ := parityChunk_spec hk hr hc
        refine ⟨hs, hwire c (hp ▸ length_paddedXor_le _ fun p hp' => ?_)⟩
        obtain ⟨c', hc', rfl⟩ := List.mem_map.mp hp'
        exact (hdata c' (List.mem_of_mem_drop (List.mem_of_mem_take hc'))).2.2.2.2.2
    · rcases List.mem_append.mp hc with hc | hc
      · exact (hdata c hc).2.2
      · have := (parityChunk_spec hk hr hc).1
        rw [hlen] at this
        omega
    · rcases List.mem_append.mp hc with hc | hc
      · have := (hdata c hc).1
        rw [hlen] at *
        omega
      · obtain ⟨-, h₁, h₂, h₃, -⟩ := parityChunk_spec hk hr hc
        rw [← hlen]
        exact ⟨h₁, h₂, h₃⟩
  · have hN : N = D := if_neg hu
    rw [if_neg hu, List.take_of_length_le hlen.le]
    refine ⟨hN ▸ hids, hcat, fun c hc => ⟨(hdata c hc).2.1, hwire c (hdata c hc).2.2.2.2.2⟩,
      fun c hc _ => (hdata c hc).2.2, fun c hc hge => absurd (hdata c hc).1 (by omega)⟩

/-- The 3-byte file in chunks of 2 bytes under the default FEC (`k = 4`, `r = 2`): two data
    chunks and two parity chunks, the data concatenating to the file. -/
theorem createChunks_layout_three :
    0 < ({ chunkSize := 2 } : TransferConfig).chunkSize ∧
      ∃ chunks, createChunks { chunkSize := 2 } {} [1, 2, 3] "b" true = some chunks ∧
        chunks.map ChunkRecord.chunkId = List.range 4 ∧
        ((chunks.take 2).map ChunkRecord.payload).flatten = [1, 2, 3] :=
  ⟨by decide, let ⟨chunks, h, hids, hcat, _⟩ :=
    createChunks_layout { chunkSize := 2 } {} [1, 2, 3] "b" true (by decide)
    ⟨chunks, h, hids, hcat⟩⟩

/-- The chunks of a non-empty file under FEC, split as the receive path reads them: `D > 0`
    data chunks then the parity chunks, numbered `0 … N - 1`, every one carrying the bundle id
    and the `k` and `r` of the configuration; the data payloads concatenate to the file, and
    the parity payloads are not all empty. -/
theorem createChunks_fec_spec (cfg : TransferConfig) (fec : FECConfig) (fileData : Bytes)
    (bundleId : String) (hcs : 0 < cfg.chunkSize) (hfec : fec.enabled = true) (hk : 0 < fec.k)
    (hr : 0 < fec.r) (hC : fileData ≠ []) :
    let D := (fileData.length + cfg.chunkSize - 1) / cfg.chunkSize
    ∃ data parity, createChunks cfg fec fileData bundleId true = some (data ++ parity) ∧
      data.length = D ∧ 0 < D ∧ (data ++ parity).length = D + fec.r * ((D + fec.k - 1) / fec.k) ∧
      (data ++ parity).map ChunkRecord.chunkId = List.range (data ++ parity).length ∧
      (data.map ChunkRecord.payload).flatten = fileData ∧
      (parity.map ChunkRecord.payload).flatten ≠ [] ∧
      ∀ c ∈ data ++ parity, c.bundleId = bundleId ∧ c.k = fec.k ∧ c.r = fec.r := by
  intro D
  obtain ⟨hids, hcat⟩ := dataChunks_spec cfg fec fileData bundleId true hcs
  set data := (List.range D).map (dataChunk cfg fec fileData bundleId true)
  have hlen : data.length = D := by simp [data]
  have hD : 0 < D := Nat.div_pos (by have := List.length_pos.mpr hC; omega) hcs
  have hids' : (data ++ generateFecChunks fec data bundleId).map ChunkRecord.chunkId =
      List.range (D + fec.r * ((D + fec.k - 1) / fec.k)) := by
    rw [List.map_append, hids, ids_generateFecChunks data bundleId hk hr, hlen, List.range_add,
      List.range'_eq_map_range, Nat.mul_comm]
  have hN := congrArg List.length hids'
  rw [List.length_map, List.length_range] at hN
  refine ⟨data, generateFecChunks fec data bundleId, ?_, hlen, hD, hN, hN ▸ hids', hcat, ?_, ?_⟩
  · rw [createChunks_eq cfg fec fileData bundleId true hcs]
    simp [hfec, hk, hr]
  · -- the first parity chunk of block 0 is at least as long as data chunk 0
    have hd₀ : 0 < (dataChunk cfg fec fileData bundleId true 0).payload.length :=
      (dataChunk_spec cfg fec fileData bundleId true hcs hD).2.2.2.2.1
    have hmem := (@mem_generateFecChunks _ data bundleId _ hk hr).mpr
      ⟨0, by rw [hlen]; exact Nat.div_pos (by omega) hk, 0, hr, rfl⟩
    refine fun hnil => absurd (List.flatten_eq_nil_iff.mp hnil _ (List.mem_map_of_mem _ hmem)) ?_
    dsimp only
    rw [xorChunks_eq_paddedXor]
    refine List.ne_nil_of_length_pos ?_
    rw [length_paddedXor]
    refine lt_of_lt_of_le hd₀ ((le_foldl_max _ 0).2 _ (List.mem_map_of_mem _ ?_))
    rw [Nat.zero_mul, List.drop_zero]
    obtain ⟨k', hk'⟩ := Nat.exists_eq_succ_of_ne_zero (Nat.pos_iff_ne_zero.mp hk)
    obtain ⟨D', hD'⟩ := Nat.exists_eq_succ_of_ne_zero (Nat.pos_iff_ne_zero.mp hD)
    rw [hk', show data = (List.range D).map _ from rfl, hD', List.range_succ_eq_map]
    simp
  · intro c hc
    rcases List.mem_append.mp hc with hc | hc
    · obtain ⟨i, -, rfl⟩ := List.mem_map.mp hc
      exact ⟨rfl, rfl, rfl⟩
    · obtain ⟨_, -, _, -, rfl⟩ := (mem_generateFecChunks hk hr).mp hc
      exact ⟨rfl, rfl, rfl⟩

/-! ## Reading the layout back -/

/-- `B = ⌈D / k⌉` as two bounds. -/
theorem eq_ceil_iff {k D B : Nat} (hk : 0 < k) :
    B = (D + k - 1) / k ↔ k * (B - 1) < D ∧ D ≤ k * B ∨ D = 0 ∧ B = 0 := by
  have h₁ : B ≤ (D + k - 1) / k ↔ B * k ≤ D + k - 1 := Nat.le_div_iff_mul_le hk
  have h₂ : (D + k - 1) / k < B + 1 ↔ D + k - 1 < B * k + k := by
    rw [Nat.div_lt_iff_lt_mul hk, Nat.succ_mul]
  have h₃ : B = 0 ∨ k ≤ B * k := B.eq_zero_or_pos.imp_right (Nat.le_mul_of_pos_left k)
  rw [Nat.mul_sub_one, Nat.mul_comm k B]
  generalize (D + k - 1) / k = q at h₁ h₂
  omega

/-- At most one block count fits a chunk count: `(k + r) * B` lies in `[T, T + k)`. -/
theorem layout_unique {k r T B D B' D' : Nat} (hr : 0 < r)
    (h : 0 < D ∧ T = D + r * B ∧ k * (B - 1) < D ∧ D ≤ k * B)
    (h' : 0 < D' ∧ T = D' + r * B' ∧ k * (B' - 1) < D' ∧ D' ≤ k * B') : B = B' := by
  have key : ∀ {B B' D D'}, (0 < D ∧ T = D + r * B ∧ k * (B - 1) < D ∧ D ≤ k * B) →
      (0 < D' ∧ T = D' + r * B' ∧ k * (B' - 1) < D' ∧ D' ≤ k * B') → ¬ B < B' := by
    intro B B' D D' h h' hlt
    have h₁ : k * B + k ≤ k * B' := by rw [← Nat.mul_succ]; exact Nat.mul_le_mul_left k hlt
    have h₂ : r * B + r ≤ r * B' := by rw [← Nat.mul_succ]; exact Nat.mul_le_mul_left r hlt
    rw [Nat.mul_sub_one] at h'
    omega
  exact le_antisymm (not_lt.mp (key h' h)) (not_lt.mp (key h h'))

/-- The first hit of a search that only one element can hit. -/
theorem findSome?_eq_of_unique {α β : Type} {f : α → Option β} {l : List α} {x : α} {v : β}
    (hx : x ∈ l) (hv : f x = some v) (hu : ∀ y ∈ l, (f y).isSome → y = x) :
    l.findSome? f = some v := by
  induction l with
  | nil => cases hx
  | cons a l ih =>
    by_cases ha : (f a).isSome
    · rw [List.findSome?_cons_of_isSome _ ha, hu a (List.mem_cons_self _ _) ha, hv]
    · have hxa : x ≠ a := fun he => ha (he ▸ hv ▸ rfl)
      rw [List.findSome?_cons_of_isNone _ (by simpa using ha)]
      exact ih ((List.mem_cons.mp hx).resolve_left hxa)
        fun y hy => hu y (List.mem_cons_of_mem _ hy)

namespace ReceiveEngine

/-- What one candidate of `_infer_block_and_data_count`'s loop returns. -/
theorem inferStep_eq_some {T k r B' B D : Nat} :
    (if T ≤ r * B' then none
      else if k * (B' - 1) < T - r * B' ∧ T - r * B' ≤ k * B' then some (B', T - r * B')
      else none) = some (B, D) ↔
      B' = B ∧ 0 < D ∧ T = D + r * B ∧ k * (B - 1) < D ∧ D ≤ k * B := by
  split_ifs with h₁ h₂
  · simp only [reduceCtorEq, false_iff]
    rintro ⟨rfl, hD, rfl, -⟩
    omega
  · simp only [Option.some.injEq, Prod.mk.injEq]
    constructor
    · rintro ⟨rfl, rfl⟩; omega
    · rintro ⟨rfl, h₃, rfl, -⟩; omega
  · simp only [false_iff]
    rintro ⟨rfl, h₃, rfl, h₄, h₅⟩
    exact h₂ ⟨by omega, by omega⟩

/-- `_infer_block_and_data_count(T, k, r)` returns `(B, D)` exactly when `D ≥ 1`,
    `T = D + r * B` and `B = ⌈D / k⌉`. -/
theorem inferBlockAndDataCount_eq_some {k r : Nat} (hk : 0 < k) (hr : 0 < r) (T B D : Nat) :
    inferBlockAndDataCount T k r = some (B, D) ↔
      0 < D ∧ T = D + r * B ∧ B = (D + k - 1) / k := by
  have hceil : ∀ {B D}, 0 < D → (B = (D + k - 1) / k ↔ k * (B - 1) < D ∧ D ≤ k * B) :=
    fun hD => (eq_ceil_iff hk).trans (or_iff_left fun h => by omega)
  constructor
  · intro h
    obtain ⟨B', -, hB'⟩ := List.exists_of_findSome?_eq_some h
    obtain ⟨-, hD, hT, h₁, h₂⟩ := inferStep_eq_some.mp hB'
    exact ⟨hD, hT, (hceil hD).mpr ⟨h₁, h₂⟩⟩
  · rintro ⟨hD, hT, hB⟩
    have hb := (hceil hD).mp hB
    have hB1 : 0 < B := by rcases Nat.eq_zero_or_pos B with rfl | h <;> omega
    have hBT : B ≤ T := by
      have : B ≤ r * B := Nat.le_mul_of_pos_left B hr
      omega
    refine findSome?_eq_of_unique (List.mem_range'_1.mpr ⟨hB1, by omega⟩)
      (inferStep_eq_some.mpr ⟨rfl, hD, hT, hb⟩) fun B' _ hs => ?_
    obtain ⟨⟨B'', D''⟩, hv⟩ := Option.isSome_iff_exists.mp hs
    obtain ⟨rfl, h'⟩ := inferStep_eq_some.mp hv
    exact layout_unique hr h' ⟨hD, hT, hb⟩

/-- `_infer_block_and_data_count(T, k, r)` for `k, r ≥ 1` returns `(B, D)` exactly when
    `D ≥ 1`, `T = D + r * B` and `B = ⌈D / k⌉`; such a pair is unique, and when there is none
    it returns nothing. So on the sender's count `T = D + r * ⌈D / k⌉` it returns `(⌈D / k⌉, D)`,
    and the receiver expects the sender's number of data chunks. -/
theorem inferBlockAndDataCount_spec (k r : Nat) (hk : 1 ≤ k) (hr : 1 ≤ r) :
    (∀ T B D, inferBlockAndDataCount T k r = some (B, D) ↔
      1 ≤ D ∧ T = D + r * B ∧ B = (D + k - 1) / k) ∧
    (∀ T B D B' D', (1 ≤ D ∧ T = D + r * B ∧ B = (D + k - 1) / k) →
      (1 ≤ D' ∧ T = D' + r * B' ∧ B' = (D' + k - 1) / k) → B = B' ∧ D = D') ∧
    (∀ T, (∀ B D, ¬ (1 ≤ D ∧ T = D + r * B ∧ B = (D + k - 1) / k)) →
      inferBlockAndDataCount T k r = none) ∧
    ∀ D, 1 ≤ D →
      inferBlockAndDataCount (D + r * ((D + k - 1) / k)) k r = some ((D + k - 1) / k, D) := by
  have hiff := inferBlockAndDataCount_eq_some hk hr
  refine ⟨hiff, fun T B D B' D' h h' => ?_, fun T hno => ?_,
    fun D hD => (hiff _ _ _).mpr ⟨hD, rfl, rfl⟩⟩
  · have h₁ := ((hiff T B D).mpr h)
    rw [(hiff T B' D').mpr h', Option.some.injEq, Prod.mk.injEq] at h₁
    exact ⟨h₁.1.symm, h₁.2.symm⟩
  · cases hi : inferBlockAndDataCount T k r with
    | none => rfl
    | some p => exact absurd ((hiff T p.1 p.2).mp hi) (hno p.1 p.2)

/-- Under the default FEC (`k = 4`, `r = 2`) the 9 chunks of a 5-chunk file read back as
    2 blocks of 5 data chunks. -/
theorem inferBlockAndDataCount_spec_default :
    (1 ≤ 4 ∧ 1 ≤ 2) ∧ inferBlockAndDataCount 9 4 2 = some (2, 5) :=
  ⟨by decide, (inferBlockAndDataCount_spec 4 2 (by decide) (by decide)).2.2.2 5 (by decide)⟩

end ReceiveEngine

end Courier
