import Courier.EndToEnd
import Courier.Repair

/-
  Courier: a transfer that fits one window writes the file sent.

  Model (read this before the theorems). With every `network_send` succeeding, `send_file` sends
  its first window, the chunks with ids below `window_size`, in order (`sendFile_first_window`).
  When the chunks fit the DATA header (ids and their count below `2 ^ 32`, `k` and `r` below
  `2 ^ 16`, at most `1200 - 40` bytes of payload, bytes below 256 so that the CRC-32 fits its 4
  bytes), each goes on the link as one datagram that decodes back (`chunkMsg_datagram`,
  `get?_wire`), so the `i`-th datagram on the link is the chunk of id `i`. What the receiver is
  handed is `arrivals` of `Courier.EndToEnd`, and `Settled.file_of_arrives` of `Courier.Repair`
  says when it writes.

  Proved:
  * `transfer_writes_sent_file`: for a file whose chunks fit one window, any run of events that
    delivers each data chunk's datagram, or under FEC all but one of a block's data datagrams
    and one of its parity datagrams, every write succeeding, writes the file sent, whatever
    else happens on the link and whatever other bundles are sent alongside.
-/

namespace Courier

/-! ## Checksums of bytes -/

theorem crc32Shift_lt {c : Nat} (h : c < 2 ^ 32) : crc32Shift c < 2 ^ 32 := by
  unfold crc32Shift
  split
  · exact Nat.xor_lt_two_pow (by omega) (by norm_num)
  · omega

theorem iterate_crc32Shift_lt (n : Nat) {c : Nat} (h : c < 2 ^ 32) : crc32Shift^[n] c < 2 ^ 32 := by
  induction n with
  | zero => exact h
  | succ n ih => rw [Function.iterate_succ_apply']; exact crc32Shift_lt ih

/-- `zlib.crc32` of bytes below `2 ^ 32` fits the 4 bytes of the DATA header. -/
theorem crc32_lt {bs : Bytes} (h : ∀ x ∈ bs, x < 2 ^ 32) : crc32 bs < 2 ^ 32 := by
  have hfold : ∀ (l : Bytes) (c : Nat), (∀ x ∈ l, x < 2 ^ 32) → c < 2 ^ 32 →
      l.foldl (fun c b => crc32Shift^[8] (c ^^^ b)) c < 2 ^ 32 := by
    intro l
    induction l with
    | nil => exact fun _ _ hc => hc
    | cons x l ih =>
      intro c hl hc
      exact ih _ (fun y hy => hl y (List.mem_cons_of_mem _ hy))
        (iterate_crc32Shift_lt 8 (Nat.xor_lt_two_pow hc (hl x (List.mem_cons_self _ _))))
  exact Nat.xor_lt_two_pow (hfold bs _ h (by norm_num)) (by norm_num)

theorem foldl_xor_getD_lt {n : Nat} (i : Nat) (ps : List Bytes)
    (h : ∀ p ∈ ps, ∀ x ∈ p, x < 2 ^ n) {acc : Nat} (hacc : acc < 2 ^ n) :
    ps.foldl (fun x p => x ^^^ p.getD i 0) acc < 2 ^ n := by
  induction ps generalizing acc with
  | nil => exact hacc
  | cons p ps ih =>
    have hp : p.getD i 0 < 2 ^ n := by
      rw [List.getD_eq_getElem?_getD]
      cases hi : p[i]? with
      | none => exact Nat.two_pow_pos n
      | some y => exact h p (List.mem_cons_self _ _) y (List.mem_iff_getElem?.mpr ⟨i, hi⟩)
    exact ih (fun q hq => h q (List.mem_cons_of_mem _ hq)) (Nat.xor_lt_two_pow hacc hp)

/-- The zero-padded XOR of `n`-bit words is made of `n`-bit words. -/
theorem lt_of_mem_paddedXor {ps : List Bytes} {n : Nat} (h : ∀ p ∈ ps, ∀ x ∈ p, x < 2 ^ n) :
    ∀ x ∈ paddedXor ps, x < 2 ^ n := fun x hx => by
  obtain ⟨i, -, rfl⟩ := List.mem_map.mp hx
  exact foldl_xor_getD_lt i ps h (Nat.two_pow_pos n)

/-! ## The chunks on the link -/

/-- Every chunk `_create_chunks` makes of a file of bytes has fields that fit the DATA header:
    a block id at most its chunk id, the configured `k` and `r` or `0`, a CRC-32 checksum, and at
    most `chunk_size` bytes of payload. -/
theorem createChunks_fields (cfg : TransferConfig) (fec : FECConfig) (fileData : Bytes)
    (b : String) (useFec : Bool) (hcs : 0 < cfg.chunkSize) (hbytes : ∀ x ∈ fileData, x < 2 ^ 8)
    {chunks : List ChunkRecord} (hcc : createChunks cfg fec fileData b useFec = some chunks) :
    ∀ ch ∈ chunks, ch.blockId ≤ ch.chunkId ∧ ch.k ≤ fec.k ∧ ch.r ≤ fec.r ∧
      ch.checksum < 2 ^ 32 ∧ ch.payload.length ≤ cfg.chunkSize := by
  have hpay : ∀ i, (dataChunk cfg fec fileData b useFec i).payload.length ≤ cfg.chunkSize ∧
      ∀ x ∈ (dataChunk cfg fec fileData b useFec i).payload, x < 2 ^ 8 := fun i => by
    rw [dataChunk_payload]
    exact ⟨List.length_take_le _ _,
      fun x hx => hbytes x (List.mem_of_mem_drop (List.mem_of_mem_take hx))⟩
  have hdata : ∀ i, (dataChunk cfg fec fileData b useFec i).blockId ≤ i ∧
      (dataChunk cfg fec fileData b useFec i).k ≤ fec.k ∧
      (dataChunk cfg fec fileData b useFec i).r ≤ fec.r := fun i => by
    simp only [dataChunk]
    refine ⟨?_, ?_, ?_⟩ <;> split <;> simp [Nat.div_le_self]
  have hd : ∀ i, (dataChunk cfg fec fileData b useFec i).blockId ≤ i ∧
      (dataChunk cfg fec fileData b useFec i).k ≤ fec.k ∧
      (dataChunk cfg fec fileData b useFec i).r ≤ fec.r ∧
      (dataChunk cfg fec fileData b useFec i).checksum < 2 ^ 32 ∧
      (dataChunk cfg fec fileData b useFec i).payload.length ≤ cfg.chunkSize := fun i =>
    ⟨(hdata i).1, (hdata i).2.1, (hdata i).2.2,
      crc32_lt fun x hx => ((hpay i).2 x hx).trans (by norm_num), (hpay i).1⟩
  rw [createChunks_eq cfg fec fileData b useFec hcs, Option.some.injEq] at hcc
  intro ch hch
  rw [← hcc] at hch
  split at hch
  · rename_i hused
    simp only [Bool.and_eq_true, decide_eq_true_eq] at hused
    rcases List.mem_append.mp hch with hch | hch
    · obtain ⟨i, -, rfl⟩ := List.mem_map.mp hch; exact hd i
    obtain ⟨blk, -, j, -, rfl⟩ := (mem_generateFecChunks hused.1.2 hused.2).mp hch
    have hblock : ∀ p ∈ (((((List.range ((fileData.length + cfg.chunkSize - 1) /
        cfg.chunkSize)).map (dataChunk cfg fec fileData b useFec)).drop (blk * fec.k)).take
          fec.k).map ChunkRecord.payload), p.length ≤ cfg.chunkSize ∧ ∀ x ∈ p, x < 2 ^ 8 :=
      fun p hp => by
        obtain ⟨ch, hch, rfl⟩ := List.mem_map.mp hp
        obtain ⟨i, -, rfl⟩ := List.mem_map.mp (List.mem_of_mem_drop (List.mem_of_mem_take hch))
        exact hpay i
    have hblk : blk ≤ blk * fec.r := Nat.le_mul_of_pos_right blk hused.2
    refine ⟨show blk ≤ _ + blk * fec.r + j by omega, le_rfl, le_rfl, crc32_lt fun x hx => ?_, ?_⟩
    · rw [xorChunks_eq_paddedXor] at hx
      exact (lt_of_mem_paddedXor (fun p hp => (hblock p hp).2) x hx).trans (by norm_num)
    · show (xorChunks _).length ≤ _
      rw [xorChunks_eq_paddedXor]
      exact length_paddedXor_le _ fun p hp => (hblock p hp).1
  · obtain ⟨i, -, rfl⟩ := List.mem_map.mp hch; exact hd i

/-- The DATA message of a chunk whose fields fit the header goes on the link, and the receiver
    decodes it back. -/
theorem chunkMsg_datagram {N : Nat} {ch : ChunkRecord} (hid : BundleIdOk ch.bundleId)
    (hc : ch.chunkId < N) (hN : N < 2 ^ 32) (hbl : ch.blockId ≤ ch.chunkId) (hk : ch.k < 2 ^ 16)
    (hr : ch.r < 2 ^ 16) (hs : ch.checksum < 2 ^ 32) (hp : ch.payload.length + 40 ≤ 1200) :
    ∃ d, serializeMessage (SendEngine.chunkMsg N ch) = some d ∧ d.length ≤ 1200 ∧
      receiveDatagram d = some (.data (ReceiveEngine.dataMsg N ch)) := by
  obtain ⟨header, hser, hlen, -, -⟩ := data_roundTrip (ReceiveEngine.dataMsg N ch) hid (hc.trans hN) hN
    (lt_of_le_of_lt hbl (hc.trans hN)) hk hr hs (show ch.payload.length < 2 ^ 16 by omega)
  have hd : (header ++ ch.payload).length ≤ 1200 := by rw [List.length_append, hlen]; omega
  exact ⟨_, hser, hd, receiveDatagram_data hid hser hd⟩

/-- Messages that all serialize to datagrams of at most 1200 bytes go on the link one for one,
    in order. -/
theorem get?_wire {msgs : List Message}
    (h : ∀ m ∈ msgs, ∃ d, serializeMessage m = some d ∧ d.length ≤ 1200) {i : Nat} {m : Message}
    (hm : msgs.get? i = some m) : ∃ d, (wire msgs).get? i = some d ∧ serializeMessage m = some d := by
  induction msgs generalizing i with
  | nil => cases hm
  | cons m' msgs ih =>
    obtain ⟨d', hd', hlen⟩ := h m' (List.mem_cons_self _ _)
    have hw : wire (m' :: msgs) = d' :: wire msgs := by
      rw [wire, List.filterMap_cons, hd']
      simp [Option.filter, hlen, wire]
    rw [hw]
    cases i with
    | zero => cases hm; exact ⟨d', rfl, hd'⟩
    | succ i => exact ih (fun m hm => h m (List.mem_cons_of_mem _ hm)) hm

/-- `_create_chunks` numbers its chunks `0 … N - 1`, `N = D + r * ⌈D / k⌉` when parity is made
    and `D` otherwise. -/
theorem ids_createChunks (cfg : TransferConfig) (fec : FECConfig) (fileData : Bytes) (b : String)
    (useFec : Bool) (hcs : 0 < cfg.chunkSize) {chunks : List ChunkRecord}
    (hcc : createChunks cfg fec fileData b useFec = some chunks) :
    let D := (fileData.length + cfg.chunkSize - 1) / cfg.chunkSize
    chunks.map ChunkRecord.chunkId = List.range chunks.length ∧
      chunks.length = if (useFec && fec.enabled && decide (fec.k > 0) && decide (fec.r > 0)) then
        D + fec.r * ((D + fec.k - 1) / fec.k) else D := by
  intro D
  obtain ⟨hids, -⟩ := dataChunks_spec cfg fec fileData b useFec hcs
  rw [createChunks_eq cfg fec fileData b useFec hcs, Option.some.injEq] at hcc
  subst hcc
  have hD : ((List.range D).map (dataChunk cfg fec fileData b useFec)).length = D := by simp
  split
  · rename_i hused
    simp only [Bool.and_eq_true, decide_eq_true_eq] at hused
    have hgen := ids_generateFecChunks ((List.range D).map (dataChunk cfg fec fileData b useFec)) b
      hused.1.2 hused.2
    have hglen := congrArg List.length hgen
    rw [List.length_map, List.length_range', hD] at hglen
    rw [List.map_append, hids, hgen, hD, List.length_append, hD, hglen, Nat.mul_comm,
      List.range_eq_range', List.range_eq_range', show List.range' D (fec.r * ((D + fec.k - 1) /
        fec.k)) = List.range' (0 + 1 * D) (fec.r * ((D + fec.k - 1) / fec.k)) by simp,
      List.range'_append]
    exact ⟨by rw [Nat.add_comm], by omega⟩
  · exact ⟨by rw [hids, hD], hD⟩

/-- `_create_chunks` of a file, the chunk size positive, succeeds with chunks numbered
    `0 … N - 1`, where `N` counts the `D` data chunks and their parity, so `D ≤ N`. -/
theorem createChunks_count (cfg : TransferConfig) (fec : FECConfig) (fileData : Bytes)
    (b : String) (fecEnabled : Bool) (hcs : 0 < cfg.chunkSize) :
    let D := (fileData.length + cfg.chunkSize - 1) / cfg.chunkSize
    ∃ chunks, createChunks cfg fec fileData b (fecEnabled && fec.enabled) = some chunks ∧
      chunks.map ChunkRecord.chunkId = List.range chunks.length ∧
      chunks.length = (if (fecEnabled && fec.enabled && decide (fec.k > 0) &&
        decide (fec.r > 0)) then D + fec.r * ((D + fec.k - 1) / fec.k) else D) ∧
      D ≤ chunks.length := by
  intro D
  obtain ⟨chunks, hcc⟩ : ∃ chunks,
      createChunks cfg fec fileData b (fecEnabled && fec.enabled) = some chunks :=
    ⟨_, createChunks_eq cfg fec fileData b _ hcs⟩
  obtain ⟨hids, hlen⟩ := ids_createChunks cfg fec fileData b _ hcs hcc
  have hcond : ((fecEnabled && fec.enabled) && fec.enabled && decide (fec.k > 0) &&
      decide (fec.r > 0)) = (fecEnabled && fec.enabled && decide (fec.k > 0) &&
        decide (fec.r > 0)) := by
    cases fecEnabled <;> cases fec.enabled <;> rfl
  rw [hcond] at hlen
  exact ⟨_, hcc, hids, hlen, by rw [hlen]; split <;> omega⟩

namespace SendEngine

theorem get?_foldl_insert_of_not_mem (l : List ChunkRecord) (d : Dict Nat ChunkRecord) {c : Nat}
    (hc : c ∉ l.map ChunkRecord.chunkId) :
    (l.foldl (fun d ch => d.insert ch.chunkId ch) d).get? c = d.get? c := by
  induction l generalizing d with
  | nil => rfl
  | cons ch l ih =>
    simp only [List.map_cons, List.mem_cons, not_or] at hc
    rw [List.foldl_cons, ih _ hc.2, Dict.get?_insert, if_neg hc.1]

/-- Chunks of distinct ids are each found under their id in their dictionary. -/
theorem get?_chunkDict {l : List ChunkRecord} (hnd : (l.map ChunkRecord.chunkId).Nodup)
    {ch : ChunkRecord} (hch : ch ∈ l) : (chunkDict l).get? ch.chunkId = some ch := by
  unfold chunkDict
  generalize (∅ : Dict Nat ChunkRecord) = d
  induction l generalizing d with
  | nil => cases hch
  | cons a l ih =>
    rw [List.map_cons, List.nodup_cons] at hnd
    rw [List.foldl_cons]
    rcases List.mem_cons.mp hch with rfl | hch
    · rw [get?_foldl_insert_of_not_mem l _ hnd.1, Dict.get?_insert, if_pos rfl]
    · exact ih hnd.2 hch _

/-- The dictionary of a nonempty list of chunks of distinct ids has entries, so `_send_window`
    goes past its empty-cache check. -/
theorem chunkDict_entries_ne_nil {l : List ChunkRecord} (hnd : (l.map ChunkRecord.chunkId).Nodup)
    (hne : l ≠ []) : (chunkDict l).entries ≠ [] := fun h => by
  have := get?_chunkDict hnd (List.head_mem hne)
  rw [Dict.get?, h] at this
  cases this

/-- With every send succeeding, the loop of `_send_window` over the ids of chunks it holds,
    none acked nor timed, sends each chunk once, in order. -/
theorem sendWindowLoop_all (d : Dict Nat ChunkRecord) (now : ℚ) (l : List ChunkRecord)
    (hd : ∀ ch ∈ l, d.get? ch.chunkId = some ch) (hnd : (l.map ChunkRecord.chunkId).Nodup)
    (n : Nat) (st : SendState)
    (hst : ∀ ch ∈ l, ch.chunkId ∉ st.ackedChunks ∧ st.chunkTimers.get? ch.chunkId = none) :
    (sendWindowLoop d now (fun _ => true) (l.map ChunkRecord.chunkId) n st).2 =
      l.map (chunkMsg st.totalChunks) := by
  induction l generalizing n st with
  | nil => rfl
  | cons ch l ih =>
    rw [List.map_cons, List.nodup_cons] at hnd
    obtain ⟨ha, ht⟩ := hst ch (List.mem_cons_self _ _)
    rw [List.map_cons, sendWindowLoop, if_neg ha, ht, hd ch (List.mem_cons_self _ _)]
    simp only [Option.any_none, Bool.false_eq_true, if_false, if_true, List.map_cons]
    rw [ih (fun c hc => hd c (List.mem_cons_of_mem _ hc)) hnd.2]
    intro c hc
    refine ⟨(hst c (List.mem_cons_of_mem _ hc)).1, ?_⟩
    rw [Dict.get?_insert, if_neg fun (he : c.chunkId = ch.chunkId) =>
      hnd.1 (he ▸ List.mem_map_of_mem _ hc)]
    exact (hst c (List.mem_cons_of_mem _ hc)).2

/-- With every send succeeding, `send_file` sends its first window: the chunks with ids below
    `window_size`, in order. -/
theorem sendFile_first_window (cfg : TransferConfig) (fec : FECConfig) (srcNodeId : String)
    (eng : SendEngine) (filePath : String) (fileData : Bytes) (destination : String)
    (fecEnabled : Bool) (b : String) (now : ℚ) {chunks : List ChunkRecord}
    (hcc : createChunks cfg fec fileData b (fecEnabled && fec.enabled) = some chunks)
    (hids : chunks.map ChunkRecord.chunkId = List.range chunks.length) (hne : chunks ≠ []) :
    (sendFile cfg fec srcNodeId eng filePath fileData destination fecEnabled b now
      fun _ => true).map Prod.snd =
        some ((chunks.take cfg.windowSize).map (chunkMsg chunks.length)) := by
  have hnd : (chunks.map ChunkRecord.chunkId).Nodup := hids ▸ List.nodup_range _
  have hr : List.range' 0 (min cfg.windowSize chunks.length - 0) =
      (chunks.take cfg.windowSize).map ChunkRecord.chunkId := by
    rw [List.map_take, hids, List.take_range, Nat.sub_zero, List.range_eq_range']
  unfold sendFile
  simp only [hcc, Option.bind_eq_bind, Option.some_bind, Option.pure_def, Option.map_some']
  unfold sendWindow windowChunks
  simp only [Dict.get?_insert, if_pos, if_neg (chunkDict_entries_ne_nil hnd hne), hr]
  exact congrArg some (sendWindowLoop_all _ _ _
    (fun ch hch => get?_chunkDict hnd (List.mem_of_mem_take hch))
    (List.map_take _ _ _ ▸ hnd.sublist (List.take_sublist _ _)) 0 _
    fun _ _ => ⟨Finset.not_mem_empty _, Dict.get?_empty _⟩)

end SendEngine

/-- A chunk numbered as `_create_chunks` numbers them sits at its id. -/
theorem get?_of_ids {l : List ChunkRecord} (hids : l.map ChunkRecord.chunkId = List.range l.length)
    {ch : ChunkRecord} (h : ch ∈ l) : l.get? ch.chunkId = some ch := by
  obtain ⟨i, hi⟩ := List.get?_of_mem h
  have hlt := (List.get?_eq_some.mp hi).1
  have hid : (l.map ChunkRecord.chunkId).get? i = some ch.chunkId := by
    rw [List.get?_eq_getElem?, List.getElem?_map, ← List.get?_eq_getElem?, hi]; rfl
  rw [hids, List.get?_eq_getElem?, List.getElem?_range hlt, Option.some.injEq] at hid
  rw [← hid, hi]

/-- Under the DATA header's bounds every chunk `_create_chunks` makes goes on the link as one
    datagram, which the receiver decodes to the chunk's DATA message. -/
theorem createChunks_datagram (cfg : TransferConfig) (fec : FECConfig) {b : String}
    (hb : BundleIdOk b) (hcs : 0 < cfg.chunkSize) (hfit : cfg.chunkSize + 40 ≤ 1200)
    (hk : fec.k < 2 ^ 16) (hr : fec.r < 2 ^ 16) {fileData : Bytes}
    (hbytes : ∀ x ∈ fileData, x < 2 ^ 8) {useFec : Bool} {chunks : List ChunkRecord}
    (hcc : createChunks cfg fec fileData b useFec = some chunks) (hN : chunks.length < 2 ^ 32) :
    ∀ ch ∈ chunks, ∃ d, serializeMessage (SendEngine.chunkMsg chunks.length ch) = some d ∧
      d.length ≤ 1200 ∧
      receiveDatagram d = some (.data (ReceiveEngine.dataMsg chunks.length ch)) := fun ch hch => by
  obtain ⟨hbl, hk', hr', hs, hp⟩ := createChunks_fields cfg fec fileData b _ hcs hbytes hcc ch hch
  have hc : ch.chunkId < chunks.length := List.mem_range.mp
    ((ids_createChunks cfg fec fileData b _ hcs hcc).1 ▸
      List.mem_map_of_mem ChunkRecord.chunkId hch)
  exact chunkMsg_datagram (SendEngine.bundleId_of_mem_createChunks cfg fec hcc ch hch ▸ hb) hc hN
    hbl (by omega) (by omega) hs (by omega)

/-- The id of a parity chunk of the block of a data id `c < D`, as `_generate_fec_chunks`
    numbers them, is below the chunk count. -/
theorem parity_id_lt {D k r c j : Nat} (hk : 0 < k) (hc : c < D) (hj : j < r) :
    D + c / k * r + j < D + r * ((D + k - 1) / k) := by
  have hblk : c / k + 1 ≤ (D + k - 1) / k := by
    rw [Nat.le_div_iff_mul_le hk, Nat.succ_mul]
    have := Nat.div_mul_le_self c k
    omega
  have := Nat.mul_le_mul_right r hblk
  rw [Nat.succ_mul, Nat.mul_comm ((D + k - 1) / k)] at this
  omega

/-- Whether an event hands the `i`-th datagram of the link to the receiver. -/
def TransferOp.delivers (i : Nat) : TransferOp → Bool
  | .deliverData j _ _ => j == i
  | _ => false

/-- Whether the file write an event may make succeeds. -/
def TransferOp.writesOk : TransferOp → Bool
  | .deliverData _ writeOk _ => writeOk
  | _ => true

namespace Transfer

open SendEngine ReceiveEngine

variable (cfg : TransferConfig) (fec : FECConfig) (srcNodeId nodeId outputDir srcAddr : String)

/-- With every send succeeding, `send_file` of `b` from fresh nodes puts each chunk of its first
    window on the link at its id. -/
theorem sendFile_toReceiver {b : String} (hb : BundleIdOk b) (hcs : 0 < cfg.chunkSize)
    (hfit : cfg.chunkSize + 40 ≤ 1200) (hk : fec.k < 2 ^ 16) (hr : fec.r < 2 ^ 16)
    (filePath : String) {fileData : Bytes} (hbytes : ∀ x ∈ fileData, x < 2 ^ 8)
    (destination : String) {fecEnabled : Bool} (now : ℚ) {chunks : List ChunkRecord}
    (hcc : createChunks cfg fec fileData b (fecEnabled && fec.enabled) = some chunks)
    (hN : chunks.length < 2 ^ 32) {ch : ChunkRecord} (hch : ch ∈ chunks)
    (hw : ch.chunkId < cfg.windowSize) :
    ((Transfer.step cfg fec srcNodeId nodeId outputDir srcAddr Transfer.init
      (.sendFile filePath fileData destination fecEnabled b now fun _ => true)).toReceiver.get?
        ch.chunkId).bind receiveDatagram = some (.data (dataMsg chunks.length ch)) := by
  have hids := (ids_createChunks cfg fec fileData b _ hcs hcc).1
  have hon := createChunks_datagram cfg fec hb hcs hfit hk hr hbytes hcc hN
  obtain ⟨⟨e, msgs⟩, he, hmsgs⟩ := Option.map_eq_some'.mp (sendFile_first_window cfg fec srcNodeId
    {} filePath fileData destination fecEnabled b now hcc hids (List.ne_nil_of_mem hch))
  have hs₁ : (Transfer.step cfg fec srcNodeId nodeId outputDir srcAddr Transfer.init
      (.sendFile filePath fileData destination fecEnabled b now fun _ => true)).toReceiver =
        wire ((chunks.take cfg.windowSize).map (chunkMsg chunks.length)) := by
    show [] ++ wire ((SendEngine.sendFile cfg fec srcNodeId {} filePath fileData destination
      fecEnabled b now fun _ => true).getD ({}, [])).2 = _
    rw [he, ← hmsgs]
    rfl
  obtain ⟨d, hser, -, hdec⟩ := hon ch hch
  obtain ⟨d', hd', hser'⟩ := @get?_wire ((chunks.take cfg.windowSize).map (chunkMsg chunks.length))
    (fun m hm => by
      obtain ⟨ch', hch', rfl⟩ := List.mem_map.mp hm
      obtain ⟨d, h₁, h₂, -⟩ := hon ch' (List.mem_of_mem_take hch')
      exact ⟨d, h₁, h₂⟩)
    ch.chunkId _ (by rw [List.get?_eq_getElem?, List.getElem?_map, List.getElem?_take_of_lt hw,
      ← List.get?_eq_getElem?, get?_of_ids hids hch]; rfl)
  rw [hser, Option.some.injEq] at hser'
  rw [hs₁, hd', ← hser', Option.some_bind, hdec]

/-- After `send_file` of `b`, events that start no transfer of `b` hand the receiver, for `b`,
    only DATA messages of its chunks, and with writes that succeed when the events' do. -/
theorem arrivals_sendFile {b : String} (hb : BundleIdOk b) {fileData : Bytes} {fecEnabled : Bool}
    {chunks : List ChunkRecord}
    (hcc : createChunks cfg fec fileData b (fecEnabled && fec.enabled) = some chunks)
    (filePath destination : String) (now : ℚ) (ops : List TransferOp)
    (hops : ∀ op ∈ ops, op.SparesBundle b ∧ op.writesOk = true) :
    ∀ a ∈ arrivals cfg fec srcNodeId nodeId outputDir srcAddr
      (Transfer.step cfg fec srcNodeId nodeId outputDir srcAddr Transfer.init
        (.sendFile filePath fileData destination fecEnabled b now fun _ => true)) ops,
      a.msg.bundleId = b → (∃ ch ∈ chunks, a.msg = dataMsg chunks.length ch) ∧
        a.writeOk = true := fun a ha hab =>
  ⟨((carries_init b chunks).sendFile cfg fec srcNodeId nodeId outputDir srcAddr hb
      (fun _ => hcc) filePath destination now fun _ => true).arrivals cfg fec srcNodeId nodeId
        outputDir srcAddr ops (fun op hop => (hops op hop).1) a ha hab, by
    obtain ⟨-, i, hi⟩ := arrivals_sent cfg fec srcNodeId nodeId outputDir srcAddr _ ops a ha
    simpa [TransferOp.writesOk] using (hops _ hi).2⟩

/-- A file whose chunks fit one window and the DATA header goes on the link at once, each chunk
    as the datagram of its id; whatever else the nodes do, other bundles sent alongside, the
    receiver writes the file sent once each data chunk's datagram is delivered or, under FEC, is
    the one datagram of its block lost while the block's other data datagrams and one of its
    parity datagrams are delivered, every write succeeding. -/
theorem transfer_writes_sent_file (b : String) (hb : BundleIdOk b) (hcs : 0 < cfg.chunkSize)
    (hfit : cfg.chunkSize + 40 ≤ 1200) (hk : fec.k < 2 ^ 16) (hr : fec.r < 2 ^ 16)
    (filePath : String) (fileData : Bytes) (hC : fileData ≠ []) (hbytes : ∀ x ∈ fileData, x < 2 ^ 8)
    (destination : String) (fecEnabled : Bool) (now : ℚ)
    (hwhole : (fecEnabled && fec.enabled && decide (fec.k > 0) && decide (fec.r > 0)) = true →
      fileData.length % cfg.chunkSize = 0)
    (hwin : let D := (fileData.length + cfg.chunkSize - 1) / cfg.chunkSize
      let N := if (fecEnabled && fec.enabled && decide (fec.k > 0) && decide (fec.r > 0)) then
        D + fec.r * ((D + fec.k - 1) / fec.k) else D
      N ≤ cfg.windowSize ∧ N < 2 ^ 32)
    (ops : List TransferOp) (hops : ∀ op ∈ ops, op.SparesBundle b ∧ op.writesOk = true)
    (hcover : let D := (fileData.length + cfg.chunkSize - 1) / cfg.chunkSize
      ∀ c < D, (∃ op ∈ ops, op.delivers c = true) ∨
        (fecEnabled && fec.enabled && decide (fec.k > 0) && decide (fec.r > 0)) = true ∧
        (∀ c' < D, c' / fec.k = c / fec.k → c' ≠ c → ∃ op ∈ ops, op.delivers c' = true) ∧
        ∃ j < fec.r, ∃ op ∈ ops, op.delivers (D + c / fec.k * fec.r + j) = true) :
    (Transfer.run cfg fec srcNodeId nodeId outputDir srcAddr Transfer.init
      (.sendFile filePath fileData destination fecEnabled b now (fun _ => true) :: ops)).receiver.files.get?
        (outputPathFor outputDir b) = some fileData := by
  set D := (fileData.length + cfg.chunkSize - 1) / cfg.chunkSize
  have hD : 0 < D := Nat.div_pos (by have := List.length_pos.mpr hC; omega) hcs
  -- the chunks: numbered `0 … N - 1`, within the window, their fields fitting the header
  obtain ⟨chunks, hcc, hids, hlen, hDN⟩ := createChunks_count cfg fec fileData b fecEnabled hcs
  have hN : chunks.length ≤ cfg.windowSize ∧ chunks.length < 2 ^ 32 := hlen ▸ hwin
  have hbid := bundleId_of_mem_createChunks cfg fec hcc
  -- `send_file` puts every chunk on the link, at its id
  set s₁ := Transfer.step cfg fec srcNodeId nodeId outputDir srcAddr Transfer.init
    (.sendFile filePath fileData destination fecEnabled b now fun _ => true)
  have hdg : ∀ ch ∈ chunks, (s₁.toReceiver.get? ch.chunkId).bind receiveDatagram =
      some (.data (dataMsg chunks.length ch)) := fun ch hch =>
    sendFile_toReceiver cfg fec srcNodeId nodeId outputDir srcAddr hb hcs hfit hk hr filePath hbytes
      destination now hcc hN.2 hch (lt_of_lt_of_le (List.mem_range.mp
        (hids ▸ List.mem_map_of_mem ChunkRecord.chunkId hch)) hN.1)
  -- the receiver is handed only the chunks, its writes succeeding
  obtain ⟨hdr, pay, hb', hpath, hnd, hflat, hkr, hfecOn, hI, hS⟩ := receive_settled cfg fec nodeId
    outputDir cfg fec fileData b fecEnabled hcs hcc (fun hm => by
      simp only [Bool.and_eq_true] at hm
      exact ⟨hm.1.1.2, hwhole (by simp [hm])⟩) {} (paths_empty outputDir) rfl rfl
    (arrivals cfg fec srcNodeId nodeId outputDir srcAddr s₁ ops)
    (arrivals_sendFile cfg fec srcNodeId nodeId outputDir srcAddr hb hcc filePath destination now
      ops hops)
  replace hnd : hdr.numDataChunks = D := hnd
  -- a delivered id below the chunk count arrives
  have harr : ∀ c < chunks.length, (∃ op ∈ ops, op.delivers c = true) →
      Arrives (arrivals cfg fec srcNodeId nodeId outputDir srcAddr s₁ ops) b c := by
    rintro c hc ⟨op, hop, hdel⟩
    cases op with
    | deliverData i writeOk ackNonce =>
      simp only [TransferOp.delivers, beq_iff_eq] at hdel
      subst hdel
      obtain ⟨ch, hch, rfl⟩ := List.mem_map.mp (hids ▸ List.mem_range.mpr hc)
      exact ⟨_, mem_arrivals cfg fec srcNodeId nodeId outputDir srcAddr hop (hdg _ hch),
        hbid _ hch, rfl⟩
    | _ => cases hdel
  show (Transfer.run cfg fec srcNodeId nodeId outputDir srcAddr s₁ ops).receiver.files.get? _ = _
  rw [receiver_run, ← hflat, ← hpath]
  refine hS.file_of_arrives cfg fec nodeId outputDir hI (hnd ▸ hD) hkr fun c hc => ?_
  rw [hb']
  rcases hcover c (hnd ▸ hc) with h | ⟨hm, hothers, j, hj, hpj⟩
  · exact Or.inl (harr c (by omega) h)
  · obtain ⟨hfe, hk', hr'⟩ := hfecOn hm hD
    have hkr' : 0 < fec.k ∧ 0 < fec.r := by
      simp only [Bool.and_eq_true, decide_eq_true_eq] at hm; exact ⟨hm.1.2, hm.2⟩
    refine Or.inr ⟨hfe, fun c' hc' hcb hne => harr c' (by omega)
      (hothers c' (hnd ▸ hc') (hk' ▸ hcb) hne), j, hr' ▸ hj, ?_⟩
    rw [hnd, hk', hr']
    refine harr _ ?_ hpj
    rw [hlen, if_pos hm]
    exact parity_id_lt hkr'.1 (hnd ▸ hc) hj

/-- The 3-byte file in chunks of 1 byte under the default FEC (`k = 4`, `r = 2`), with a second
    bundle sent alongside: data chunk 1 is never delivered, the second parity chunk and data
    chunks 0 and 2 are, and a tick retransmits in between. -/
theorem transfer_writes_sent_file_lost_chunk :
    BundleIdOk "b" ∧ 0 < ({ chunkSize := 1 } : TransferConfig).chunkSize ∧
      ({ chunkSize := 1 } : TransferConfig).chunkSize + 40 ≤ 1200 ∧
      ({} : FECConfig).k < 2 ^ 16 ∧ ({} : FECConfig).r < 2 ^ 16 ∧ [1, 2, 3] ≠ [] ∧
      (∀ x ∈ [1, 2, 3], x < 2 ^ 8) ∧
      ((true && ({} : FECConfig).enabled && decide (({} : FECConfig).k > 0) &&
        decide (({} : FECConfig).r > 0)) = true → [1, 2, 3].length % 1 = 0) ∧
      (let D := ([1, 2, 3].length + 1 - 1) / 1
        let N := if (true && ({} : FECConfig).enabled && decide (({} : FECConfig).k > 0) &&
          decide (({} : FECConfig).r > 0)) then D + 2 * ((D + 4 - 1) / 4) else D
        N ≤ ({ chunkSize := 1 } : TransferConfig).windowSize ∧ N < 2 ^ 32) ∧
      (∀ op ∈ [TransferOp.deliverData 4 true 1, .sendFile "g" [9] "B" false "c" 0 fun _ => true,
          .tick "b" 5 5 (fun _ => true), .deliverData 0 true 2, .deliverData 2 true 3],
        op.SparesBundle "b" ∧ op.writesOk = true) ∧
      (Transfer.run { chunkSize := 1 } {} "A" "B" "recv" "h:1" Transfer.init
        [.sendFile "f" [1, 2, 3] "B" true "b" 0 (fun _ => true), .deliverData 4 true 1,
         .sendFile "g" [9] "B" false "c" 0 (fun _ => true), .tick "b" 5 5 (fun _ => true),
         .deliverData 0 true 2, .deliverData 2 true 3]).receiver.files.get?
        (outputPathFor "recv" "b") = some [1, 2, 3] :=
  ⟨by decide, by decide, by decide, by decide, by decide, by decide, by decide, by decide,
    by decide, by decide,
    transfer_writes_sent_file { chunkSize := 1 } {} "A" "B" "recv" "h:1" "b" (by decide)
      (by decide) (by decide) (by decide) (by decide) "f" [1, 2, 3] (by decide) (by decide) "B"
      true 0 (by decide) (by decide) _ (by decide) (by decide)⟩

end Transfer

end Courier
