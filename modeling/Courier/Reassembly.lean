import Courier.ReceiveInvariant
import Courier.Layout

/-
  Courier: what the receive path makes of a bundle's chunks.

  Model. `feed` is a receiver handling DATA messages one after another, every write of the
  output file succeeding; `dataMsg N c` is the DATA message `_send_window` builds for the
  stored chunk `c` of a bundle of `N` chunks. `InOrder` describes the receiver after the
  first `j` of `N` messages of one bundle, in id order: ids `0 … j - 1` received, each data id
  holding its payload, parity only once every data chunk is in, delivered once the data
  count is reached, the rows of the ids since the last multiple of 500 still buffered, and the
  file written once, at delivery.

  Proved:
  * `handleData_ignores_checksum`: whatever its checksum, after a DATA message the chunk id
    is received, and `handle_data` never leaves the states unchanged without sending.
  * `tryFecReconstruct_exact_iff`: an XOR rebuild of the one missing data chunk of a block,
    from a parity that is the zero-padded XOR of the block, equals the lost payload exactly
    when that payload is a longest one of the block.
  * `feed_inOrder`: the run of a receiver over a bundle's messages in id order keeps
    `InOrder`; `receiver_fec_off_writes_parity` (a receiver with FEC disabled appends every parity
    payload) and `delivered_with_unflushed_rows` (under FEC the bundle is delivered before any
    parity arrives, with rows still buffered and missing from the store) follow.
-/

namespace Courier

namespace ReceiveEngine

variable (cfg : TransferConfig) (fec : FECConfig) (nodeId outputDir : String)

/-! ## The checksum is never read -/

/-- The new chunk is received by `takeChunk`. -/
theorem mem_takeChunk (st : ReceiveState) (msg : DataMsg) (store : Store) :
    msg.chunkId ∈ (takeChunk st msg store).1.receivedChunks := by
  have h₁ : msg.chunkId ∈ (recordChunk st msg).receivedChunks := by
    unfold recordChunk
    dsimp only
    split_ifs <;> exact Finset.mem_insert_self _ _
  unfold takeChunk
  refine (takes_flush (fun _ => True) _ _).grows ?_
  split
  · exact (takes_tryFecReconstruct _ _ _).grows h₁
  · exact h₁

/-- `handle_data` reads no checksum: after any DATA message its chunk id is received, and it
    never leaves the states as they were without sending a message. -/
theorem handleData_ignores_checksum (eng : ReceiveEngine) (msg : DataMsg) (src : String)
    (writeOk : Bool) (ackNonce : Nat) :
    let r := handleData cfg fec nodeId outputDir eng msg src writeOk ackNonce
    ∃ rs, r.1.activeReceives.get? msg.bundleId = some rs ∧ msg.chunkId ∈ rs.receivedChunks ∧
      (r.1.activeReceives = eng.activeReceives → r.2 ≠ []) := by
  have hold : ∀ rs, eng.activeReceives.get? msg.bundleId = some rs →
      stateFor cfg fec nodeId outputDir eng msg src = (eng.store, rs) := fun rs h => by
    simp [stateFor, h]
  unfold handleData
  set s := stateFor cfg fec nodeId outputDir eng msg src
  dsimp only
  split
  · exact ⟨_, by rw [Dict.get?_insert, if_pos rfl], ‹_›, fun _ => List.cons_ne_nil _ _⟩
  · rename_i hnot
    set r := takeChunk s.2 msg s.1
    have hmem : msg.chunkId ∈ (maybeDeliver r.1 r.2 eng.files writeOk ackNonce).1.receivedChunks := by
      rcases maybeDeliver_cases r.1 r.2 eng.files writeOk ackNonce with h | ⟨-, -, h⟩ <;> rw [h] <;>
        exact mem_takeChunk _ _ _
    refine ⟨_, by rw [Dict.get?_insert, if_pos rfl], hmem, fun he => absurd ?_ hnot⟩
    have hget : eng.activeReceives.get? msg.bundleId =
        some (maybeDeliver r.1 r.2 eng.files writeOk ackNonce).1 := by
      rw [← he]; exact (Dict.get?_insert _ _ _ _).trans (if_pos rfl)
    rw [hold _ hget]
    exact hmem

/-! ## Rebuilding a lost data chunk -/

/-- `expected_ids` of `_try_fec_reconstruct`: the data ids of a block. -/
def blockIds (st : ReceiveState) (blockId : Nat) : List Nat :=
  List.range' (blockId * st.k) (min (blockId * st.k + st.k) st.numDataChunks - blockId * st.k)

/-- The rebuild of the one missing data chunk `m` of a block whose first parity payload is
    `p`: the XOR of `p` with the block's present data payloads. -/
theorem tryFecReconstruct_rebuild (st : ReceiveState) (blockId : Nat) (store : Store) {m : Nat}
    {p : Bytes} {ps : List Bytes} (hfec : st.fecEnabled = true) (hk : 0 < st.k) (hr : 0 < st.r)
    (hp : st.parityChunks.get? blockId = some (p :: ps))
    (hmiss : (blockIds st blockId).filter (fun c => (st.dataChunks.get? c).isNone) = [m]) :
    (tryFecReconstruct st blockId store).1.dataChunks.get? m = some (xorBytes p
      (((blockIds st blockId).filter fun c => (st.dataChunks.get? c).isSome).map
        fun c => (st.dataChunks.get? c).getD [])) := by
  unfold tryFecReconstruct
  rw [if_neg (by simp [hfec, hk.ne', hr.ne']), hp]
  dsimp only [Option.bind, List.head?]
  unfold blockIds at hmiss
  rw [hmiss]
  simp [blockIds]

/-- A block rebuild from a parity that is the zero-padded XOR of the block's payloads `orig`,
    with every present data chunk holding its payload, gives back the lost payload exactly when
    it is a longest one of its block; a shorter one comes back zero-padded to the longest. -/
theorem tryFecReconstruct_exact_iff (st : ReceiveState) (blockId : Nat) (store : Store)
    (orig : Nat → Bytes) {m : Nat} {p : Bytes} {ps : List Bytes} (hfec : st.fecEnabled = true)
    (hk : 0 < st.k) (hr : 0 < st.r) (hp : st.parityChunks.get? blockId = some (p :: ps))
    (hpar : p = paddedXor ((blockIds st blockId).map orig))
    (hdata : ∀ c ∈ blockIds st blockId, (st.dataChunks.get? c).isSome →
      st.dataChunks.get? c = some (orig c))
    (hmiss : (blockIds st blockId).filter (fun c => (st.dataChunks.get? c).isNone) = [m]) :
    (tryFecReconstruct st blockId store).1.dataChunks.get? m = some (orig m) ↔
      ∀ c ∈ blockIds st blockId, (orig c).length ≤ (orig m).length := by
  set ids := blockIds st blockId
  set present := ids.filter fun c => (st.dataChunks.get? c).isSome
  have hpres : present.map (fun c => (st.dataChunks.get? c).getD []) = present.map orig :=
    List.map_congr_left fun c hc => by
      obtain ⟨hc₁, hc₂⟩ := List.mem_filter.mp hc
      rw [hdata c hc₁ hc₂]; rfl
  have hm : m ∈ ids := (List.mem_filter.mp (hmiss ▸ List.mem_singleton_self m)).1
  set L := (ids.map orig).foldl (fun m p => max m p.length) 0
  have hle : ∀ q ∈ ids.map orig, q.length ≤ L := (le_foldl_max _ 0).2
  have hpl : ∀ q ∈ present.map orig, q.length ≤ L := fun q hq => by
    obtain ⟨c, hc, rfl⟩ := List.mem_map.mp hq
    exact hle _ (List.mem_map_of_mem orig (List.mem_filter.mp hc).1)
  set rec := xorBytes p (present.map orig)
  have hrec : rec = (present.map orig).foldl xorInto p := rfl
  have hlen : rec.length = L := by
    rw [hrec, length_foldl_xorInto, hpar, length_paddedXor]
    exact le_antisymm (foldl_max_le hpl le_rfl) (le_foldl_max _ _).1
  have hnone : ids.filter (fun c => !(st.dataChunks.get? c).isSome) = [m] := by
    rw [← hmiss]
    exact List.filter_congr fun c _ => by cases st.dataChunks.get? c <;> rfl
  have hget : ∀ i, rec.getD i 0 = (orig m).getD i 0 := fun i => by
    rw [hrec, getD_foldl_xorInto, hpar, getD_paddedXor, foldl_xor_init, List.foldl_map,
      List.foldl_map, foldl_xor_filter (fun c => (orig c).getD i 0)
        (fun c => (st.dataChunks.get? c).isSome) ids, hnone, List.foldl_cons, List.foldl_nil,
      Nat.zero_xor, Nat.xor_comm, ← Nat.xor_assoc, Nat.xor_self, Nat.zero_xor]
  rw [tryFecReconstruct_rebuild st blockId store hfec hk hr hp hmiss, hpres, Option.some.injEq]
  constructor
  · intro h c hc
    rw [← h, hlen]
    exact hle _ (List.mem_map_of_mem orig hc)
  · intro h
    refine eq_of_getD (le_antisymm ?_ (hle _ (List.mem_map_of_mem orig hm)) |>.symm ▸ hlen) hget
    exact foldl_max_le (fun q hq => by
      obtain ⟨c, hc, rfl⟩ := List.mem_map.mp hq
      exact h c hc) (Nat.zero_le _)

/-- The block `[1, 2]`, `[3]` of the 3-byte file in chunks of 2 bytes, its parity `[2, 2]`:
    with chunk 1 lost, the rebuild is not `[3]`. -/
theorem tryFecReconstruct_short_chunk :
    let st : ReceiveState :=
      { bundleId := "b", totalChunks := 3, fecEnabled := true, k := 2, r := 1,
        outputPath := "recv/bundle_b.bin", numDataChunks := 2, receivedChunks := {0, 2},
        dataChunks := (∅ : Dict Nat Bytes).insert 0 [1, 2],
        parityChunks := (∅ : Dict Nat (List Bytes)).insert 0 [[2, 2]] }
    let orig : Nat → Bytes := fun c => if c = 0 then [1, 2] else [3]
    st.parityChunks.get? 0 = some [[2, 2]] ∧ [2, 2] = paddedXor ((blockIds st 0).map orig) ∧
      (blockIds st 0).filter (fun c => (st.dataChunks.get? c).isNone) = [1] ∧
      (tryFecReconstruct st 0 Store.empty).1.dataChunks.get? 1 ≠ some (orig 1) := by
  intro st orig
  have hp : st.parityChunks.get? 0 = some [[2, 2]] := by decide
  have hpar : [2, 2] = paddedXor ((blockIds st 0).map orig) := by decide
  have hmiss : (blockIds st 0).filter (fun c => (st.dataChunks.get? c).isNone) = [1] := by decide
  refine ⟨hp, hpar, hmiss, ?_⟩
  rw [ne_eq, tryFecReconstruct_exact_iff st 0 Store.empty orig rfl (by decide) (by decide) hp hpar
    (by decide) hmiss]
  decide

/-! ## A bundle's chunks in order -/

/-- The DATA message `_send_window` builds for the stored chunk `c` of a bundle of `N`
    chunks. -/
def dataMsg (N : Nat) (c : ChunkRecord) : DataMsg :=
  ⟨c.bundleId, c.chunkId, N, c.blockId, c.k, c.r, c.checksum, c.payload⟩

theorem chunkMsg_eq_dataMsg (N : Nat) (c : ChunkRecord) :
    SendEngine.chunkMsg N c = .data (dataMsg N c) := rfl

/-- A rebuild does nothing while every parity block it could use has all its data. -/
theorem tryFecReconstruct_of_full (st : ReceiveState) (blockId : Nat) (store : Store)
    (h : (st.parityChunks.get? blockId).isSome → ∀ c < st.numDataChunks,
      (st.dataChunks.get? c).isSome) :
    tryFecReconstruct st blockId store = (st, store) := by
  unfold tryFecReconstruct
  split
  · rfl
  · cases hp : st.parityChunks.get? blockId with
    | none => rfl
    | some ps =>
      have hall := h (by rw [hp]; rfl)
      have hnil : ((List.range' (blockId * st.k) (min (blockId * st.k + st.k) st.numDataChunks -
          blockId * st.k)).filter fun c => (st.dataChunks.get? c).isNone) = [] :=
        List.filter_eq_nil_iff.mpr fun c hc => by
          rw [List.mem_range'_1] at hc
          have := hall c (by omega)
          revert this
          cases st.dataChunks.get? c <;> simp
      dsimp only [Option.bind]
      cases ps.head? with
      | none => rfl
      | some p => simp only [hnil]

/-- The receiver after the first `j` of the `N` messages of bundle `b`, in id order, message
    `c` carrying `pay c`, with the FEC flag `fe`, the data count `nd` and the output path
    `path` it chose at creation; its store held no chunk row of `b`, and its files were
    `files₀`. -/
structure InOrder (b : String) (N : Nat) (fe : Bool) (nd : Nat) (path : String) (j : Nat)
    (pay : Nat → Bytes) (files₀ : Dict String Bytes)
    (st : ReceiveState) (store : Store) (files : Dict String Bytes) : Prop where
  bundleId : st.bundleId = b
  totalChunks : st.totalChunks = N
  fecEnabled : st.fecEnabled = fe
  numDataChunks : st.numDataChunks = nd
  outputPath : st.outputPath = path
  fec : st.fecEnabled = true → 0 < st.k ∧ 0 < st.numDataChunks
  numData : st.fecEnabled = false → st.numDataChunks = N
  received : st.receivedChunks = Finset.range j
  data : ∀ c, st.dataChunks.get? c =
    if c < j ∧ (st.fecEnabled = false ∨ c < st.numDataChunks) then some (pay c) else none
  parity : ∀ blk, (st.parityChunks.get? blk).isSome → st.numDataChunks < j
  delivered : st.delivered = decide (st.numData ≤ j)
  buffer : st.writeBuffer.map ChunkRecord.chunkId =
    if j = N then [] else List.range' (500 * (j / 500)) (j % 500)
  bufferKeys : ∀ row ∈ st.writeBuffer, row.bundleId = b
  stored : ∀ c, (store.chunks.get? (b, c)).isSome ↔ c < if j = N then N else 500 * (j / 500)
  files : files = if st.numData ≤ j then
    files₀.insert st.outputPath ((List.range st.numData).map pay).flatten else files₀

/-- `recordChunk` changes only the received ids, the data and the parity. -/
theorem recordChunk_eq (st : ReceiveState) (msg : DataMsg) :
    ∃ data parity, recordChunk st msg = { st with
      receivedChunks := insert msg.chunkId st.receivedChunks, dataChunks := data,
      parityChunks := parity } := by
  unfold recordChunk
  dsimp only
  split_ifs <;> exact ⟨_, _, rfl⟩

/-- `_maybe_deliver` with a write that succeeds. -/
theorem maybeDeliver_eq (st : ReceiveState) (store : Store) (files : Dict String Bytes)
    (ackNonce : Nat) :
    maybeDeliver st store files true ackNonce =
      if st.delivered = false ∧ ∀ c < st.numData, (st.dataChunks.get? c).isSome then
        ({ st with delivered := true }, store.updateBundleState st.bundleId "delivered",
          files.insert st.outputPath st.assembled,
          [makeDeliveredMsg st.bundleId, makeCustodyAckMsg st.bundleId [] ackNonce])
      else (st, store, files, []) := by
  unfold maybeDeliver
  by_cases hd : st.delivered = true
  · simp [hd]
  · have hd' : st.delivered = false := by simpa using hd
    simp only [hd', Bool.false_eq_true, if_false, true_and, Bool.not_true]
    by_cases hall : ∀ c < st.numData, (st.dataChunks.get? c).isSome
    · rw [if_pos hall, if_neg]
      simp only [List.any_eq_true, List.mem_range, not_exists, not_and]
      intro c hc hn
      have := hall c hc
      simp_all
    · rw [if_neg hall, if_pos]
      push_neg at hall
      obtain ⟨c, hc, hn⟩ := hall
      simp only [List.any_eq_true, List.mem_range]
      exact ⟨c, hc, by simpa using hn⟩

/-- Delivery after message `j` of a bundle whose ids `0 … j` hold their payloads: the state is
    delivered once the data count is reached, and the file is written exactly then, with the
    data payloads in order; the chunk rows stay as they were. -/
theorem deliver_next {j : Nat} {pay : Nat → Bytes} {files₀ files : Dict String Bytes}
    (st : ReceiveState) (store : Store) (ackNonce : Nat)
    (hnum : st.fecEnabled = true → 0 < st.numDataChunks)
    (hdata : ∀ c, st.dataChunks.get? c = if c < j + 1 ∧
      (st.fecEnabled = false ∨ c < st.numDataChunks) then some (pay c) else none)
    (hdel : st.delivered = decide (st.numData ≤ j))
    (hfiles : files = if st.numData ≤ j then
      files₀.insert st.outputPath ((List.range st.numData).map pay).flatten else files₀) :
    ∃ store' msgs, maybeDeliver st store files true ackNonce =
      ({ st with delivered := decide (st.numData ≤ j + 1) }, store',
        if st.numData ≤ j + 1 then
          files₀.insert st.outputPath ((List.range st.numData).map pay).flatten else files₀,
        msgs) ∧ store'.chunks = store.chunks := by
  have hcls : ∀ c < st.numData, st.fecEnabled = false ∨ c < st.numDataChunks := fun c hc => by
    cases hf : st.fecEnabled
    · exact Or.inl rfl
    · have := hnum hf
      simp only [ReceiveState.numData, Nat.pos_iff_ne_zero.mp this, if_false] at hc
      exact Or.inr hc
  have hsome : ∀ c < st.numData, c < j + 1 → st.dataChunks.get? c = some (pay c) :=
    fun c hc hcj => by rw [hdata, if_pos ⟨hcj, hcls c hc⟩]
  have hall : (∀ c < st.numData, (st.dataChunks.get? c).isSome) ↔ st.numData ≤ j + 1 := by
    refine ⟨fun h => Nat.le_of_not_lt fun hlt => ?_, fun hle c hc => by rw [hsome c hc (by omega)]; rfl⟩
    have := h (j + 1) hlt
    rw [hdata, if_neg (by omega)] at this
    cases this
  rw [maybeDeliver_eq]
  by_cases hd : st.delivered = false ∧ ∀ c < st.numData, (st.dataChunks.get? c).isSome
  · rw [if_pos hd]
    have hle := hall.mp hd.2
    have hlt : ¬ st.numData ≤ j := by rw [hdel] at hd; simpa using hd.1
    refine ⟨store.updateBundleState st.bundleId "delivered",
      [makeDeliveredMsg st.bundleId, makeCustodyAckMsg st.bundleId [] ackNonce], ?_, rfl⟩
    rw [decide_eq_true hle, if_pos hle, hfiles, if_neg hlt]
    congr 4
    exact congrArg List.flatten (List.map_congr_left fun c hc =>
      by rw [hsome c (List.mem_range.mp hc) (by rw [List.mem_range] at hc; omega)]; rfl)
  · rw [if_neg hd]
    refine ⟨store, [], ?_, rfl⟩
    by_cases hj : st.numData ≤ j
    · have hst : { st with delivered := decide (st.numData ≤ j + 1) } = st := by
        rw [decide_eq_true (by omega : st.numData ≤ j + 1), ← decide_eq_true hj, ← hdel]
      rw [hst, if_pos (by omega : st.numData ≤ j + 1), hfiles, if_pos hj]
    · have hgt : ¬ st.numData ≤ j + 1 := fun hle =>
        hd ⟨by rw [hdel]; simpa using hj, hall.mpr hle⟩
      have hst : { st with delivered := decide (st.numData ≤ j + 1) } = st := by
        rw [decide_eq_false hgt, ← decide_eq_false hj, ← hdel]
      rw [hst, if_neg hgt, hfiles, if_neg hj]

/-- The flush either empties the buffer into the store or leaves both. -/
theorem flush_eq (st : ReceiveState) (store : Store) :
    flush st store =
      if 500 ≤ st.writeBuffer.length ∨ st.receivedChunks.card = st.totalChunks then
        ({ st with writeBuffer := [] }, store.saveChunksBulk st.writeBuffer)
      else (st, store) := rfl

namespace InOrder

variable {b : String} {N : Nat} {fe : Bool} {nd : Nat} {path : String} {j : Nat}
  {pay : Nat → Bytes} {files₀ : Dict String Bytes}
  {st : ReceiveState} {store : Store} {files : Dict String Bytes}
  (h : InOrder b N fe nd path j pay files₀ st store files)
include h

/-- The next message, recorded: received ids `0 … j`, the data and the parity of `j + 1`
    messages. -/
theorem record (hj : j < N) {msg : DataMsg} (hc : msg.chunkId = j) (hp : msg.payload = pay j) :
    (recordChunk st msg).receivedChunks = Finset.range (j + 1) ∧
      (∀ c, (recordChunk st msg).dataChunks.get? c = if c < j + 1 ∧
        (st.fecEnabled = false ∨ c < st.numDataChunks) then some (pay c) else none) ∧
      ∀ blk, ((recordChunk st msg).parityChunks.get? blk).isSome → st.numDataChunks < j + 1 := by
  obtain ⟨_, _, he⟩ := recordChunk_eq st msg
  refine ⟨by rw [he, hc, h.received, Finset.range_succ], ?_⟩
  unfold recordChunk
  dsimp only
  by_cases hpar : st.fecEnabled = true ∧ st.numDataChunks ≤ j
  · have hk := h.fec hpar.1
    rw [if_pos ⟨hpar.1, hk⟩, if_neg (by omega)]
    refine ⟨fun c => ?_, fun blk hblk => ?_⟩
    · have hiff : (c < j ∧ c < st.numDataChunks) ↔ (c < j + 1 ∧ c < st.numDataChunks) := by
        omega
      simp only [h.data, hpar.1, Bool.true_eq_false, false_or, hiff]
    · dsimp only at hblk
      rw [Dict.get?_insert] at hblk
      split_ifs at hblk
      · omega
      · exact (h.parity blk hblk).trans (Nat.lt_succ_self j)
  · have hcls : st.fecEnabled = false ∨ j < st.numDataChunks :=
      (Bool.eq_false_or_eq_true _).symm.imp_right fun hf => Nat.lt_of_not_le fun hle => hpar ⟨hf, hle⟩
    have hdata : ∀ c, (st.dataChunks.insert msg.chunkId msg.payload).get? c = if c < j + 1 ∧
        (st.fecEnabled = false ∨ c < st.numDataChunks) then some (pay c) else none := fun c => by
      rw [Dict.get?_insert, hc]
      by_cases hcj : c = j
      · subst hcj
        rw [if_pos rfl, if_pos ⟨Nat.lt_succ_self c, hcls⟩, hp]
      · have hlt : c < j ↔ c < j + 1 := by omega
        rw [if_neg hcj, h.data]
        simp only [hlt]
    have hparity : ∀ blk, (st.parityChunks.get? blk).isSome → st.numDataChunks < j + 1 :=
      fun blk hblk => (h.parity blk hblk).trans (Nat.lt_succ_self j)
    split_ifs with h₁ h₂
    · exact ⟨hdata, hparity⟩
    · exact absurd ⟨h₁.1, by omega⟩ hpar
    · exact ⟨hdata, hparity⟩

/-- The flush after message `j`: the buffered rows of the ids since the last multiple of 500,
    all in the store once the count reaches a multiple of 500 or `N`. -/
theorem flush_next (hj : j < N) (row : ChunkRecord) (hrb : row.bundleId = b) (hrc : row.chunkId = j)
    (st' : ReceiveState) (hbuf : st'.writeBuffer = st.writeBuffer ++ [row])
    (hcard : st'.receivedChunks.card = j + 1) (htot : st'.totalChunks = N) :
    ∃ buf store', flush st' store = ({ st' with writeBuffer := buf }, store') ∧
      buf.map ChunkRecord.chunkId =
        (if j + 1 = N then [] else List.range' (500 * ((j + 1) / 500)) ((j + 1) % 500)) ∧
      (∀ r ∈ buf, r.bundleId = b) ∧
      ∀ c, (store'.chunks.get? (b, c)).isSome ↔
        c < if j + 1 = N then N else 500 * ((j + 1) / 500) := by
  have hjN : j ≠ N := by omega
  have hmap : st'.writeBuffer.map ChunkRecord.chunkId = List.range' (500 * (j / 500)) (j % 500 + 1) := by
    rw [hbuf, List.map_append, h.buffer, if_neg hjN, List.map_singleton, hrc, List.range'_concat]
    congr 2
    omega
  have hlen : st'.writeBuffer.length = j % 500 + 1 := by
    rw [← List.length_map _ ChunkRecord.chunkId, hmap, List.length_range']
  have hkeys : ∀ r ∈ st'.writeBuffer, r.bundleId = b := fun r hr => by
    rw [hbuf, List.mem_append, List.mem_singleton] at hr
    rcases hr with hr | rfl
    · exact h.bufferKeys r hr
    · exact hrb
  rw [flush_eq]
  by_cases hf : 500 ≤ j % 500 + 1 ∨ j + 1 = N
  · rw [if_pos (by rw [hlen, hcard, htot]; exact hf)]
    refine ⟨[], _, rfl, ?_, fun _ hr => absurd hr (List.not_mem_nil _), fun c => ?_⟩
    · split_ifs
      · rfl
      · rw [show (j + 1) % 500 = 0 by omega]; rfl
    · rw [Store.isSome_saveChunksBulk, h.stored, if_neg hjN]
      constructor
      · rintro (hc | ⟨r, hr, hrk⟩)
        · split_ifs <;> omega
        · have hmem := List.mem_map_of_mem ChunkRecord.chunkId hr
          rw [hmap, List.mem_range'_1] at hmem
          obtain ⟨-, rfl⟩ := Prod.mk.inj hrk
          split_ifs <;> omega
      · intro hc
        by_cases hlt : c < 500 * (j / 500)
        · exact Or.inl hlt
        · have hmem : c ∈ st'.writeBuffer.map ChunkRecord.chunkId := by
            rw [hmap, List.mem_range'_1]
            split_ifs at hc <;> omega
          obtain ⟨r, hr, hrc'⟩ := List.mem_map.mp hmem
          exact Or.inr ⟨r, hr, by rw [hkeys r hr, hrc']⟩
  · rw [if_neg (by rw [hlen, hcard, htot]; exact hf)]
    refine ⟨_, _, rfl, ?_, hkeys, fun c => ?_⟩
    · rw [if_neg (by omega), hmap]
      congr 1 <;> omega
    · rw [h.stored, if_neg hjN, if_neg (by omega), show (j + 1) / 500 = j / 500 by omega]

/-- One message of the run: the new message `j` of bundle `b`, carrying `pay j`, taken and
    delivered, leaves the receiver after `j + 1` messages. -/
theorem step (hj : j < N) {msg : DataMsg} (hb : msg.bundleId = b) (hc : msg.chunkId = j)
    (hp : msg.payload = pay j) (ackNonce : Nat) :
    let r := takeChunk st msg store
    let d := maybeDeliver r.1 r.2 files true ackNonce
    InOrder b N fe nd path (j + 1) pay files₀ d.1 d.2.1 d.2.2.1 := by
  obtain ⟨data, parity, he⟩ := recordChunk_eq st msg
  obtain ⟨hrec, hdat, hpar⟩ := h.record hj hc hp
  rw [he] at hrec hdat hpar
  have htake : takeChunk st msg store = flush { st with
      receivedChunks := insert msg.chunkId st.receivedChunks, dataChunks := data,
      parityChunks := parity, writeBuffer := st.writeBuffer ++ [chunkRow st msg] } store := by
    unfold takeChunk
    rw [he]
    dsimp only
    split
    · rw [tryFecReconstruct_of_full _ _ _ fun hblk c hc' => ?_]
      · rfl
      · have hlt := hpar _ hblk
        have hc'' : c < st.numDataChunks := hc'
        rw [hdat, if_pos ⟨by omega, Or.inr hc''⟩]
        rfl
    · rfl
  obtain ⟨buf, store', hfl, hbuf, hkeys, hstored⟩ := h.flush_next hj (chunkRow st msg) hb hc
    { st with
      receivedChunks := insert msg.chunkId st.receivedChunks, dataChunks := data,
      parityChunks := parity, writeBuffer := st.writeBuffer ++ [chunkRow st msg] } rfl
    ((congrArg Finset.card hrec).trans (Finset.card_range _)) h.totalChunks
  obtain ⟨store'', msgs, hd, hch⟩ := @deliver_next j pay files₀ files
    { st with
      receivedChunks := insert msg.chunkId st.receivedChunks, dataChunks := data,
      parityChunks := parity, writeBuffer := buf } store' ackNonce (fun hf => (h.fec hf).2) hdat
    h.delivered h.files
  dsimp only
  rw [htake, hfl, hd]
  exact
    { bundleId := h.bundleId, totalChunks := h.totalChunks, fecEnabled := h.fecEnabled,
      numDataChunks := h.numDataChunks, outputPath := h.outputPath, fec := h.fec,
      numData := h.numData, received := hrec, data := hdat, parity := hpar, delivered := rfl,
      buffer := hbuf, bufferKeys := hkeys, stored := fun c => by rw [hch]; exact hstored c,
      files := rfl }

end InOrder

/-- A new state of `N > 0` chunks, over a store without rows of its bundle, is the receiver
    before any message. -/
theorem inOrder_init (b path : String) (N k r nd : Nat) (fe : Bool) (pay : Nat → Bytes)
    (files₀ : Dict String Bytes) (store : Store) (hN : 0 < N)
    (hfec : fe = true → 0 < k ∧ 0 < nd) (hnum : fe = false → nd = N)
    (hrows : ∀ c, store.chunks.get? (b, c) = none) :
    InOrder b N fe nd path 0 pay files₀
      { bundleId := b, totalChunks := N, fecEnabled := fe, k, r, outputPath := path,
        numDataChunks := nd } store files₀ := by
  have hpos : ¬ ReceiveState.numData
      { bundleId := b, totalChunks := N, fecEnabled := fe, k, r, outputPath := path,
        numDataChunks := nd } ≤ 0 := by
    show ¬ (if nd = 0 then N else nd) ≤ 0
    split_ifs <;> omega
  exact
    { bundleId := rfl, totalChunks := rfl, fecEnabled := rfl, numDataChunks := rfl,
      outputPath := rfl, fec := hfec, numData := hnum, received := Finset.range_zero.symm,
      data := fun c => by rw [Dict.get?_empty, if_neg (by omega)],
      parity := fun blk hblk => absurd hblk (by rw [Dict.get?_empty]; exact Bool.false_ne_true),
      delivered := (decide_eq_false hpos).symm,
      buffer := by split_ifs <;> rfl,
      bufferKeys := fun _ hr => absurd hr (List.not_mem_nil _),
      stored := fun c => by rw [hrows, if_neg (by omega)]; simp,
      files := by rw [if_neg hpos] }

/-- `_create_receive_state` for a bundle of `N > 0` chunks whose store has no chunk row. -/
theorem createReceiveState_inOrder (store : Store) (b src : String) (N k r : Nat)
    (pay : Nat → Bytes) (files₀ : Dict String Bytes) (hN : 0 < N)
    (hrows : ∀ c, store.chunks.get? (b, c) = none) :
    let s := createReceiveState cfg fec nodeId outputDir store b N k r src
    InOrder b N s.2.fecEnabled s.2.numDataChunks s.2.outputPath 0 pay files₀ s.2 s.1 files₀ := by
  unfold createReceiveState
  split_ifs with hc
  · cases hi : inferBlockAndDataCount N k r with
    | none => exact inOrder_init _ _ _ _ _ _ _ _ _ _ hN (fun h => nomatch h) (fun _ => rfl) hrows
    | some p =>
      obtain ⟨B, D⟩ := p
      have hD := ((inferBlockAndDataCount_eq_some (Nat.pos_of_ne_zero hc.1)
        (Nat.pos_of_ne_zero hc.2.1) N B D).mp hi).1
      exact inOrder_init _ _ _ _ _ _ _ _ _ _ hN (fun _ => ⟨Nat.pos_of_ne_zero hc.1, hD⟩)
        (fun h => nomatch h) hrows
  · exact inOrder_init _ _ _ _ _ _ _ _ _ _ hN (fun h => nomatch h) (fun _ => rfl) hrows

/-- One new message `j` of the bundle: `handle_data` leaves the receiver after `j + 1`
    messages, whether it found the bundle's state or created it. -/
theorem handleData_inOrder {b path : String} {N nd j : Nat} {fe : Bool} {pay : Nat → Bytes}
    {files₀ : Dict String Bytes} (eng : ReceiveEngine) (msg : DataMsg) (src : String)
    (ackNonce : Nat)
    (h : InOrder b N fe nd path j pay files₀ (stateFor cfg fec nodeId outputDir eng msg src).2
      (stateFor cfg fec nodeId outputDir eng msg src).1 eng.files)
    (hj : j < N) (hb : msg.bundleId = b) (hc : msg.chunkId = j) (hp : msg.payload = pay j) :
    let eng' := (handleData cfg fec nodeId outputDir eng msg src true ackNonce).1
    ∃ st, eng'.activeReceives.get? b = some st ∧
      InOrder b N fe nd path (j + 1) pay files₀ st eng'.store eng'.files := by
  unfold handleData
  dsimp only
  rw [if_neg (by rw [h.received, hc]; exact Finset.not_mem_range_self)]
  exact ⟨_, by rw [Dict.get?_insert, if_pos hb.symm], h.step hj hb hc hp ackNonce⟩

/-- A receiver handling the DATA messages `msgs` from `src` one after another, every write of
    the output file succeeding. -/
def feed (eng : ReceiveEngine) (msgs : List DataMsg) (src : String) (ackNonce : Nat) :
    ReceiveEngine :=
  msgs.foldl (fun eng msg => (handleData cfg fec nodeId outputDir eng msg src true ackNonce).1) eng

theorem feed_append (eng : ReceiveEngine) (msgs : List DataMsg) (msg : DataMsg) (src : String)
    (ackNonce : Nat) :
    feed cfg fec nodeId outputDir eng (msgs ++ [msg]) src ackNonce =
      (handleData cfg fec nodeId outputDir (feed cfg fec nodeId outputDir eng msgs src ackNonce)
        msg src true ackNonce).1 := by
  rw [feed, List.foldl_append, List.foldl_cons, List.foldl_nil, feed]

theorem stateFor_of_get {eng : ReceiveEngine} {msg : DataMsg} {st : ReceiveState} (src : String)
    (h : eng.activeReceives.get? msg.bundleId = some st) :
    stateFor cfg fec nodeId outputDir eng msg src = (eng.store, st) := by
  rw [stateFor, h]

theorem stateFor_of_none {eng : ReceiveEngine} {msg : DataMsg} (src : String)
    (h : eng.activeReceives.get? msg.bundleId = none) :
    stateFor cfg fec nodeId outputDir eng msg src = createReceiveState cfg fec nodeId outputDir
      eng.store msg.bundleId msg.totalChunks msg.k msg.r src := by
  rw [stateFor, h]

/-- The run over the messages `ms` of one bundle `b`, numbered `0 … |ms| - 1` in order, all with
    one header, fed to a receiver that has neither a state nor a chunk row of `b`: afterwards
    the receiver is in order after `|ms|` messages, with the FEC flag, data count and path of
    the state the first message created. -/
theorem feed_inOrder (eng : ReceiveEngine) (ms : List DataMsg) (src : String) (ackNonce : Nat)
    {b : String} {N k r : Nat} (hnew : eng.activeReceives.get? b = none)
    (hrows : ∀ c, eng.store.chunks.get? (b, c) = none)
    (hids : ms.map DataMsg.chunkId = List.range ms.length)
    (hhdr : ∀ m ∈ ms, m.bundleId = b ∧ m.totalChunks = N ∧ m.k = k ∧ m.r = r)
    (hlen : ms.length ≤ N) (hpos : ms ≠ []) :
    let s := (createReceiveState cfg fec nodeId outputDir eng.store b N k r src).2
    let eng' := feed cfg fec nodeId outputDir eng ms src ackNonce
    ∃ st, eng'.activeReceives.get? b = some st ∧
      InOrder b N s.fecEnabled s.numDataChunks s.outputPath ms.length
        (fun c => (ms.map DataMsg.payload).getD c []) eng.files st eng'.store eng'.files := by
  intro s eng'
  have hid : ∀ j (hj : j < ms.length), ms[j].chunkId = j := fun j hj => by
    simpa [hj] using congrArg (fun l => l[j]?) hids
  have hpay : ∀ j (hj : j < ms.length), ms[j].payload = (ms.map DataMsg.payload).getD j [] :=
    fun j hj => by simp [List.getD_eq_getElem?_getD, hj]
  have hrun : ∀ j (hj : j < ms.length),
      let e := feed cfg fec nodeId outputDir eng (ms.take (j + 1)) src ackNonce
      ∃ st, e.activeReceives.get? b = some st ∧
        InOrder b N s.fecEnabled s.numDataChunks s.outputPath (j + 1)
          (fun c => (ms.map DataMsg.payload).getD c []) eng.files st e.store e.files := by
    intro j
    induction j with
    | zero =>
      intro hj
      obtain ⟨hb, hN, hk, hr⟩ := hhdr _ (List.getElem_mem hj)
      rw [List.take_succ, List.take_zero, List.getElem?_eq_getElem hj, Option.toList_some,
        List.nil_append, ← List.nil_append [ms[0]], feed_append]
      refine handleData_inOrder cfg fec nodeId outputDir _ _ _ ackNonce ?_ (by omega) hb
        (hid 0 hj) (hpay 0 hj)
      rw [stateFor_of_none cfg fec nodeId outputDir src (by rw [hb]; exact hnew), hb, hN, hk, hr]
      exact createReceiveState_inOrder cfg fec nodeId outputDir _ _ _ _ _ _ _ _ (by omega) hrows
    | succ j ih =>
      intro hj
      obtain ⟨st, hget, hio⟩ := ih (by omega)
      obtain ⟨hb, -, -, -⟩ := hhdr _ (List.getElem_mem hj)
      rw [List.take_succ, List.getElem?_eq_getElem hj, Option.toList_some, feed_append]
      refine handleData_inOrder cfg fec nodeId outputDir _ _ _ ackNonce ?_ (by omega) hb
        (hid _ hj) (hpay _ hj)
      rw [stateFor_of_get cfg fec nodeId outputDir src (by rw [hb]; exact hget)]
      exact hio
  obtain ⟨n, hn⟩ : ∃ n, ms.length = n + 1 :=
    Nat.exists_eq_succ_of_ne_zero (List.length_pos.mpr hpos).ne'
  have := hrun n (by omega)
  rwa [← hn, List.take_of_length_le (le_refl _)] at this

/-! ## A file's chunks through the receiver -/

theorem map_range_getD_append {α : Type} (l l' : List α) (d : α) :
    (List.range l.length).map (fun c => (l ++ l').getD c d) = l :=
  List.ext_getElem (by simp) fun i _ h => by
    simp [List.getElem?_append_left h, List.getElem?_eq_getElem h]

/-- The state a DATA message of a FEC bundle creates at a receiver with FEC enabled: the data
    count is inferred back from the total. -/
theorem createReceiveState_fec (hon : fec.enabled = true) (store : Store) (b src : String)
    {k r D : Nat} (hk : 0 < k) (hr : 0 < r) (hD : 0 < D) :
    let s := (createReceiveState cfg fec nodeId outputDir store b (D + r * ((D + k - 1) / k))
      k r src).2
    s.fecEnabled = true ∧ s.numDataChunks = D ∧
      s.outputPath = pathJoin outputDir ("bundle_" ++ b ++ ".bin") := by
  have hi := (inferBlockAndDataCount_eq_some hk hr _ _ _).mpr ⟨hD, rfl, rfl⟩
  simp only [createReceiveState, Nat.pos_iff_ne_zero.mp hk, Nat.pos_iff_ne_zero.mp hr, hon, hi,
    ne_eq, not_false_eq_true, and_self, if_true]

/-- The state a DATA message creates at a receiver with FEC disabled: every chunk is data. -/
theorem createReceiveState_off (hoff : fec.enabled = false) (store : Store) (b src : String)
    (N k r : Nat) :
    let s := (createReceiveState cfg fec nodeId outputDir store b N k r src).2
    s.fecEnabled = false ∧ s.numDataChunks = N ∧
      s.outputPath = pathJoin outputDir ("bundle_" ++ b ++ ".bin") := by
  simp [createReceiveState, hoff]

/-- The first `j` chunks of a bundle of `N` chunks numbered in order, sent as `_send_window`
    sends them to a receiver with neither a state nor a row of the bundle. -/
theorem feed_chunks_inOrder (eng : ReceiveEngine) (chunks : List ChunkRecord) (j : Nat)
    (src : String) (ackNonce : Nat) {b : String} {k r : Nat}
    (hnew : eng.activeReceives.get? b = none) (hrows : ∀ c, eng.store.chunks.get? (b, c) = none)
    (hids : chunks.map ChunkRecord.chunkId = List.range chunks.length)
    (hhdr : ∀ c ∈ chunks, c.bundleId = b ∧ c.k = k ∧ c.r = r) (hj : 0 < j)
    (hjN : j ≤ chunks.length) :
    let N := chunks.length
    let s := (createReceiveState cfg fec nodeId outputDir eng.store b N k r src).2
    let eng' := feed cfg fec nodeId outputDir eng ((chunks.take j).map (dataMsg N)) src ackNonce
    ∃ st, eng'.activeReceives.get? b = some st ∧
      InOrder b N s.fecEnabled s.numDataChunks s.outputPath j
        (fun c => ((chunks.take j).map ChunkRecord.payload).getD c []) eng.files st eng'.store
        eng'.files := by
  intro N s eng'
  have hlen : ((chunks.take j).map (dataMsg N)).length = j := by simp [hjN]
  have := @feed_inOrder cfg fec nodeId outputDir eng ((chunks.take j).map (dataMsg N)) src ackNonce
    b N k r hnew hrows ?_ ?_ (by omega) (by rw [← List.length_pos, hlen]; exact hj)
  · rw [hlen, List.map_map] at this
    exact this
  · rw [hlen, List.map_map, show DataMsg.chunkId ∘ dataMsg N = ChunkRecord.chunkId from rfl,
      List.map_take, hids, List.take_range, Nat.min_eq_left hjN]
  · intro m hm
    obtain ⟨c, hc, rfl⟩ := List.mem_map.mp hm
    obtain ⟨hb, hk, hr⟩ := hhdr c (List.mem_of_mem_take hc)
    exact ⟨hb, rfl, hk, hr⟩

section Transfer

variable (sendCfg : TransferConfig) (sendFec : FECConfig) (fileData : Bytes) (b src : String)
  (eng : ReceiveEngine) (ackNonce : Nat)

/-- A non-empty file sent under FEC to a receiver with FEC disabled: once every chunk is in, the
    output file is every payload in id order, parity included, and longer than the file. -/
theorem receiver_fec_off_writes_parity (hcs : 0 < sendCfg.chunkSize) (hC : fileData ≠ [])
    (hfec : sendFec.enabled = true) (hk : 0 < sendFec.k) (hr : 0 < sendFec.r)
    (hoff : fec.enabled = false) (hnew : eng.activeReceives.get? b = none)
    (hrows : ∀ c, eng.store.chunks.get? (b, c) = none) :
    ∃ chunks, createChunks sendCfg sendFec fileData b true = some chunks ∧
      ∃ out, (feed cfg fec nodeId outputDir eng (chunks.map (dataMsg chunks.length)) src
        ackNonce).files.get? (pathJoin outputDir ("bundle_" ++ b ++ ".bin")) = some out ∧
        out = (chunks.map ChunkRecord.payload).flatten ∧ fileData.length < out.length := by
  obtain ⟨data, parity, hcc, hlen, hD, hN, hids, hcat, hpar, hhdr⟩ :=
    createChunks_fec_spec sendCfg sendFec fileData b hcs hfec hk hr hC
  refine ⟨data ++ parity, hcc, _, ?_, rfl, ?_⟩
  · obtain ⟨st, -, hio⟩ := feed_chunks_inOrder cfg fec nodeId outputDir eng (data ++ parity) _ src
      ackNonce hnew hrows hids hhdr (by omega) le_rfl
    obtain ⟨hfe, hnd, hpath⟩ := createReceiveState_off cfg fec nodeId outputDir hoff eng.store b
      src (data ++ parity).length sendFec.k sendFec.r
    have hnum : st.numData = (data ++ parity).length := by
      rw [ReceiveState.numData, hio.numDataChunks, hnd, hio.totalChunks]
      split_ifs <;> rfl
    have hfiles := hio.files
    rw [List.take_of_length_le le_rfl, hnum, if_pos le_rfl, hio.outputPath, hpath] at hfiles
    rw [hfiles, Dict.get?_insert, if_pos rfl]
    have hpay := map_range_getD_append ((data ++ parity).map ChunkRecord.payload) [] []
    rw [List.length_map, List.append_nil] at hpay
    rw [hpay]
  · rw [List.map_append, List.flatten_append, hcat, List.length_append]
    have := List.length_pos.mpr hpar
    omega

/-- The 3-byte file in chunks of 2 bytes under the default FEC (`k = 4`, `r = 2`), received
    with FEC disabled: the file written is longer than 3 bytes. -/
theorem receiver_fec_off_three :
    (0 < ({ chunkSize := 2 } : TransferConfig).chunkSize ∧ [1, 2, 3] ≠ ([] : Bytes) ∧
      ({} : FECConfig).enabled = true ∧ 0 < ({} : FECConfig).k ∧ 0 < ({} : FECConfig).r ∧
      ({ enabled := false } : FECConfig).enabled = false ∧
      ({} : ReceiveEngine).activeReceives.get? "b" = none ∧
      ∀ c, ({} : ReceiveEngine).store.chunks.get? ("b", c) = none) ∧
    ∃ chunks, createChunks { chunkSize := 2 } {} [1, 2, 3] "b" true = some chunks ∧
      ∃ out, (feed {} { enabled := false } "B" "received" {} (chunks.map (dataMsg chunks.length))
        "A" 0).files.get? (pathJoin "received" ("bundle_" ++ "b" ++ ".bin")) = some out ∧
        out = (chunks.map ChunkRecord.payload).flatten ∧ [1, 2, 3].length < out.length :=
  ⟨⟨by decide, by decide, rfl, by decide, by decide, rfl, rfl, fun _ => rfl⟩,
    receiver_fec_off_writes_parity {} { enabled := false } "B" "received" { chunkSize := 2 } {}
      [1, 2, 3] "b" "A" {} 0 (by decide) (by decide) rfl (by decide) (by decide) rfl rfl
      fun _ => rfl⟩

/-- Under FEC at both ends, a file of `D` data chunks, `D` not a multiple of 500: after the `D`
    data chunks, before any parity, the bundle is delivered with rows still in the write buffer,
    and a received chunk has no row in the store. -/
theorem delivered_with_unflushed_rows (hcs : 0 < sendCfg.chunkSize) (hC : fileData ≠ [])
    (hfec : sendFec.enabled = true) (hk : 0 < sendFec.k) (hr : 0 < sendFec.r)
    (hon : fec.enabled = true)
    (hD : (fileData.length + sendCfg.chunkSize - 1) / sendCfg.chunkSize % 500 ≠ 0)
    (hnew : eng.activeReceives.get? b = none)
    (hrows : ∀ c, eng.store.chunks.get? (b, c) = none) :
    ∃ chunks, createChunks sendCfg sendFec fileData b true = some chunks ∧
      let eng' := feed cfg fec nodeId outputDir eng
        ((chunks.take ((fileData.length + sendCfg.chunkSize - 1) / sendCfg.chunkSize)).map
          (dataMsg chunks.length)) src ackNonce
      ∃ st, eng'.activeReceives.get? b = some st ∧ st.delivered = true ∧ st.writeBuffer ≠ [] ∧
        ∃ c ∈ st.receivedChunks, eng'.store.chunks.get? (b, c) = none := by
  obtain ⟨data, parity, hcc, hlen, hD₀, hN, hids, -, -, hhdr⟩ :=
    createChunks_fec_spec sendCfg sendFec fileData b hcs hfec hk hr hC
  refine ⟨data ++ parity, hcc, ?_⟩
  set D := (fileData.length + sendCfg.chunkSize - 1) / sendCfg.chunkSize
  have hceil : 0 < (D + sendFec.k - 1) / sendFec.k := Nat.div_pos (by omega) hk
  have hDN : D ≠ (data ++ parity).length := by
    rw [hN]
    have := Nat.mul_le_mul_left sendFec.r hceil
    omega
  obtain ⟨st, hget, hio⟩ := feed_chunks_inOrder cfg fec nodeId outputDir eng (data ++ parity) D src
    ackNonce hnew hrows hids hhdr hD₀ (by omega)
  obtain ⟨-, hnd, -⟩ := createReceiveState_fec cfg fec nodeId outputDir hon eng.store b src
    hk hr hD₀
  rw [← hN] at hnd
  have hnum : st.numData = D := by
    rw [ReceiveState.numData, hio.numDataChunks, hnd, if_neg (by omega)]
  refine ⟨st, hget, by rw [hio.delivered, hnum, decide_eq_true le_rfl], fun hnil => ?_,
    D - 1, by rw [hio.received, Finset.mem_range]; omega, ?_⟩
  · have := congrArg List.length hio.buffer
    rw [hnil, if_neg hDN, List.map_nil, List.length_nil, List.length_range'] at this
    omega
  · have := hio.stored (D - 1)
    rw [if_neg hDN] at this
    exact Option.not_isSome_iff_eq_none.mp fun hs => by have := this.mp hs; omega

/-- The 3-byte file in chunks of 2 bytes under the default FEC at both ends: after its 2 data
    chunks the bundle is delivered with rows unflushed. -/
theorem delivered_with_unflushed_rows_three :
    (0 < ({ chunkSize := 2 } : TransferConfig).chunkSize ∧ [1, 2, 3] ≠ ([] : Bytes) ∧
      ({} : FECConfig).enabled = true ∧ 0 < ({} : FECConfig).k ∧ 0 < ({} : FECConfig).r ∧
      ([1, 2, 3].length + ({ chunkSize := 2 } : TransferConfig).chunkSize - 1) /
        ({ chunkSize := 2 } : TransferConfig).chunkSize % 500 ≠ 0 ∧
      ({} : ReceiveEngine).activeReceives.get? "b" = none ∧
      ∀ c, ({} : ReceiveEngine).store.chunks.get? ("b", c) = none) ∧
    ∃ chunks, createChunks { chunkSize := 2 } {} [1, 2, 3] "b" true = some chunks ∧
      let eng' := feed {} {} "B" "received" {} ((chunks.take 2).map (dataMsg chunks.length)) "A" 0
      ∃ st, eng'.activeReceives.get? "b" = some st ∧ st.delivered = true ∧ st.writeBuffer ≠ [] ∧
        ∃ c ∈ st.receivedChunks, eng'.store.chunks.get? ("b", c) = none :=
  ⟨⟨by decide, by decide, rfl, by decide, by decide, by decide, rfl, fun _ => rfl⟩,
    delivered_with_unflushed_rows {} {} "B" "received" { chunkSize := 2 } {} [1, 2, 3] "b" "A" {}
      0 (by decide) (by decide) rfl (by decide) (by decide) rfl (by decide) rfl fun _ => rfl⟩

end Transfer

end ReceiveEngine

end Courier
