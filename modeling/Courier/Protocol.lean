import Courier.Json
import Mathlib.Data.Finset.Sort
import Mathlib.Data.Nat.Find
import Mathlib.Data.Nat.Lattice

/-
  Courier: the five wire messages as the engines build them (`protocol.py`).

  Each message kind is a structure with the fields of its dictionary; `Message` is their sum.
  A SACK built by `make_sack_msg` has no `acked_chunks` key: only `_deserialize_sack_message`
  adds it, so `SackMsg.ackedChunks` is an `Option`. `computeSackWindow` is
  `_compute_sack_window`: the watermark (the last id of the run `0, 1, …` in the acked set, or
  `-1`) and a bitmap of at most `maxSackWindowBits` ids above it, high bit first.
  `watermarkScan_spec` says the watermark loop finds `leastAbsent S - 1`.
-/

namespace Courier

/-- `MAX_SACK_WINDOW_BITS`. -/
def maxSackWindowBits : Nat := 2048

/-- A DATA message: one chunk of a bundle. -/
structure DataMsg where
  bundleId : String
  chunkId : Nat
  totalChunks : Nat
  blockId : Nat
  k : Nat
  r : Nat
  checksum : Nat
  payload : Bytes
  deriving DecidableEq, Repr

/-- A SACK message; `ackedChunks` is set only by the decoder. -/
structure SackMsg where
  bundleId : String
  recvWatermark : Int
  sackBitmap : Bytes
  ackedChunks : Option (List Nat)
  deriving DecidableEq, Repr

/-- The acked set `handle_sack` reads from a SACK: `set(msg.get("acked_chunks", []))`. -/
def SackMsg.ackedSet (m : SackMsg) : Finset Nat := (m.ackedChunks.getD []).toFinset

/-- A CUSTODY_REQ message. -/
structure CustodyReqMsg where
  bundleId : String
  ttlRemaining : Nat
  ranges : List (Int × Int)
  deriving DecidableEq, Repr

/-- A CUSTODY_ACK message. -/
structure CustodyAckMsg where
  bundleId : String
  ranges : List (Int × Int)
  ackNonce : Nat
  deriving DecidableEq, Repr

/-- A DELIVERED message. -/
structure DeliveredMsg where
  bundleId : String
  deriving DecidableEq, Repr

/-- A message dictionary of one of the five kinds. -/
inductive Message where
  | data (m : DataMsg)
  | sack (m : SackMsg)
  | custodyReq (m : CustodyReqMsg)
  | custodyAck (m : CustodyAckMsg)
  | delivered (m : DeliveredMsg)
  deriving DecidableEq, Repr

/-- `message["bundle_id"]`. -/
def Message.bundleId : Message → String
  | .data m => m.bundleId
  | .sack m => m.bundleId
  | .custodyReq m => m.bundleId
  | .custodyAck m => m.bundleId
  | .delivered m => m.bundleId

/-- `make_data_msg` (the callers always pass `payload`). -/
def makeDataMsg (bundleId : String) (chunkId totalChunks blockId k r checksum : Nat)
    (payload : Bytes) : Message :=
  .data ⟨bundleId, chunkId, totalChunks, blockId, k, r, checksum, payload⟩

/-! ## The SACK window -/

/-- `sorted(s)` for a set of chunk ids (an insertion sort, so that it evaluates). -/
def sortedIds (S : Finset Nat) : List Nat :=
  Quot.liftOn S.val (List.insertionSort (· ≤ ·)) fun _ _ h =>
    List.eq_of_perm_of_sorted
      ((List.perm_insertionSort _ _).trans (h.trans (List.perm_insertionSort _ _).symm))
      (List.sorted_insertionSort _ _) (List.sorted_insertionSort _ _)

theorem sortedIds_eq_sort (S : Finset Nat) : sortedIds S = S.sort (· ≤ ·) := by
  obtain ⟨⟨l⟩, _⟩ := S
  exact List.eq_of_perm_of_sorted
    ((List.perm_insertionSort _ l).trans (List.mergeSort_perm _ _).symm)
    (List.sorted_insertionSort _ _) (Finset.sort_sorted _ _)

theorem mem_sortedIds {S : Finset Nat} {x : Nat} : x ∈ sortedIds S ↔ x ∈ S := by
  rw [sortedIds_eq_sort, Finset.mem_sort]

theorem sortedIds_sorted (S : Finset Nat) : (sortedIds S).Sorted (· < ·) := by
  rw [sortedIds_eq_sort]
  exact Finset.sort_sorted_lt S

/-- The loop of `_compute_sack_window` over `sorted(acked_set)`: extend the watermark while the
    ids are `next_expected`, stop at the first gap. -/
def watermarkScan : List Nat → Int → Nat → Int
  | [], w, _ => w
  | c :: cs, w, next =>
    if c = next then watermarkScan cs c (next + 1)
    else if c > next then w
    else watermarkScan cs w next

/-- `bitmap[byte_index] |= 1 << (7 - bit_pos)` for the id `c`, `bit_index = c - base`. -/
def setSackBit (base : Nat) (bitmap : Bytes) (c : Nat) : Bytes :=
  bitmap.modify (· ||| 1 <<< (7 - (c - base) % 8)) ((c - base) / 8)

/-- `_compute_sack_window(acked_chunks)`: the watermark and the bitmap of the ids above it,
    at most `MAX_SACK_WINDOW_BITS` of them. -/
def computeSackWindow (ackedChunks : List Nat) : Int × Bytes :=
  let ackedSet := ackedChunks.toFinset
  if ackedSet = ∅ then (-1, [])
  else
    let watermark := watermarkScan (sortedIds ackedSet) (-1) 0
    let maxAcked : Int := (ackedSet.sup id : Nat)
    if maxAcked ≤ watermark then (watermark, [])
    else
      let maxHigh := min maxAcked (watermark + maxSackWindowBits)
      let numBits := maxHigh - (watermark + 1) + 1
      let numBytes := ((numBits + 7) / 8).toNat
      let inWindow := (sortedIds ackedSet).filter fun (c : Nat) => watermark < c ∧ c ≤ maxHigh
      (watermark, inWindow.foldl (setSackBit (watermark + 1).toNat) (List.replicate numBytes 0))

/-- `make_sack_msg(bundle_id, acked_chunks_list)`. -/
def makeSackMsg (bundleId : String) (ackedChunks : List Nat) : Message :=
  let (w, bitmap) := computeSackWindow ackedChunks
  .sack ⟨bundleId, w, bitmap, none⟩

/-- `make_custody_req_msg` (integer TTLs). -/
def makeCustodyReqMsg (bundleId : String) (ranges : List (Int × Int)) (ttlRemaining : Nat) :
    Message :=
  .custodyReq ⟨bundleId, ttlRemaining, ranges⟩

/-- `make_custody_ack_msg`; `ackNonce` is the value `secrets.randbits(64)` drew. -/
def makeCustodyAckMsg (bundleId : String) (ranges : List (Int × Int)) (ackNonce : Nat) :
    Message :=
  .custodyAck ⟨bundleId, ranges, ackNonce⟩

/-- `make_delivered_msg`. -/
def makeDeliveredMsg (bundleId : String) : Message := .delivered ⟨bundleId⟩

/-! ## The watermark -/

/-- The least natural number not in `S`. -/
def leastAbsent (S : Finset Nat) : Nat := Nat.find (Infinite.exists_not_mem_finset S)

theorem leastAbsent_not_mem (S : Finset Nat) : leastAbsent S ∉ S :=
  Nat.find_spec (Infinite.exists_not_mem_finset S)

theorem mem_of_lt_leastAbsent {S : Finset Nat} {n : Nat} (h : n < leastAbsent S) : n ∈ S := by
  by_contra hn
  exact Nat.find_min _ h hn

theorem leastAbsent_le_of_not_mem {S : Finset Nat} {n : Nat} (h : n ∉ S) : leastAbsent S ≤ n :=
  Nat.find_min' _ h

@[simp] theorem leastAbsent_empty : leastAbsent ∅ = 0 :=
  Nat.le_zero.mp (leastAbsent_le_of_not_mem (Finset.not_mem_empty 0))

/-- The scan over the ids of `S` from `next` on, in increasing order, with every id below
    `next` in `S`, stops at `leastAbsent S`. -/
theorem watermarkScan_spec (S : Finset Nat) (l : List Nat) (w : Int) (next : Nat)
    (hl : l.Sorted (· < ·)) (hS : ∀ c ∈ l, c ∈ S) (hcov : ∀ c ∈ S, next ≤ c → c ∈ l)
    (hge : ∀ c ∈ l, next ≤ c) (hnext : next ≤ leastAbsent S) (hw : w = (next : Int) - 1) :
    watermarkScan l w next = (leastAbsent S : Int) - 1 := by
  induction l generalizing w next with
  | nil =>
    have : next = leastAbsent S := by
      rcases Nat.lt_or_ge next (leastAbsent S) with h | h
      · exact absurd (hcov next (mem_of_lt_leastAbsent h) le_rfl) (List.not_mem_nil _)
      · omega
    simp [watermarkScan, hw, this]
  | cons c cs ih =>
    have hsorted := List.sorted_cons.mp hl
    have hcS : c ∈ S := hS c (List.mem_cons_self _ _)
    have hnext_le : next ≤ c := hge c (List.mem_cons_self _ _)
    by_cases hc : c = next
    · subst hc
      rw [watermarkScan, if_pos rfl]
      have hne : c ≠ leastAbsent S := fun h => leastAbsent_not_mem S (h ▸ hcS)
      refine ih _ _ hsorted.2 (fun d hd => hS d (List.mem_cons_of_mem _ hd)) ?_
        (fun d hd => hsorted.1 d hd) (by omega) (by push_cast; ring)
      intro d hd hle
      rcases List.mem_cons.mp (hcov d hd (by omega)) with rfl | h
      · omega
      · exact h
    · have hnot : next ∉ S := fun hm => by
        rcases List.mem_cons.mp (hcov next hm le_rfl) with h | h
        · exact hc h.symm
        · have := hsorted.1 next h; omega
      have hle := leastAbsent_le_of_not_mem hnot
      rw [watermarkScan, if_neg hc, if_pos (by omega), hw]
      omega

theorem watermarkScan_sortedIds (S : Finset Nat) :
    watermarkScan (sortedIds S) (-1) 0 = (leastAbsent S : Int) - 1 :=
  watermarkScan_spec _ _ _ _ (sortedIds_sorted _) (fun _ => mem_sortedIds.mp)
    (fun _ hc _ => mem_sortedIds.mpr hc) (fun _ _ => Nat.zero_le _) (Nat.zero_le _) rfl

theorem computeSackWindow_fst (l : List Nat) :
    (computeSackWindow l).1 = (leastAbsent l.toFinset : Int) - 1 := by
  unfold computeSackWindow
  dsimp only
  rw [watermarkScan_sortedIds]
  split_ifs with h <;> simp [h]

/-! ## The bitmap -/

/-- The bit of id `x` in a bitmap over the ids from `base`: bit `7 - i % 8` of byte `i / 8`,
    where `i = x - base`. -/
def bitmapHas (base : Nat) (bm : Bytes) (x : Nat) : Bool :=
  base ≤ x && (bm.getD ((x - base) / 8) 0).testBit (7 - (x - base) % 8)

@[simp] theorem bitmapHas_nil (base x : Nat) : bitmapHas base [] x = false := by
  simp [bitmapHas]

@[simp] theorem bitmapHas_replicate_zero (base n x : Nat) :
    bitmapHas base (List.replicate n 0) x = false := by
  simp [bitmapHas, List.getD_eq_getElem?_getD, List.getElem?_replicate]
  split <;> simp

/-- A bitmap read one byte at a time: the first byte holds ids `base … base + 7`. -/
theorem bitmapHas_cons (base b : Nat) (bs : Bytes) (x : Nat) :
    bitmapHas base (b :: bs) x =
      (decide (base ≤ x ∧ x < base + 8) && b.testBit (7 - (x - base)) ||
        bitmapHas (base + 8) bs x) := by
  unfold bitmapHas
  by_cases h1 : base ≤ x
  · by_cases h2 : x < base + 8
    · have hd : (x - base) / 8 = 0 := by omega
      have hm : (x - base) % 8 = x - base := by omega
      simp [h1, h2, hd, hm, show ¬base + 8 ≤ x by omega]
    · have hd : (x - base) / 8 = (x - (base + 8)) / 8 + 1 := by omega
      have hm : (x - base) % 8 = (x - (base + 8)) % 8 := by omega
      simp [h1, h2, hd, hm, show base + 8 ≤ x by omega]
  · simp [h1, show ¬base + 8 ≤ x by omega]

@[simp] theorem length_setSackBit (base : Nat) (bm : Bytes) (c : Nat) :
    (setSackBit base bm c).length = bm.length := List.length_modify _ _ _

@[simp] theorem length_foldl_setSackBit (base : Nat) (l : List Nat) (bm : Bytes) :
    (l.foldl (setSackBit base) bm).length = bm.length := by
  induction l generalizing bm with
  | nil => rfl
  | cons c cs ih => rw [List.foldl_cons, ih, length_setSackBit]

theorem bitmapHas_setSackBit {base c : Nat} {bm : Bytes} (hc : base ≤ c)
    (hlen : c - base < 8 * bm.length) (x : Nat) :
    bitmapHas base (setSackBit base bm c) x = (bitmapHas base bm x || decide (x = c)) := by
  by_cases hx : base ≤ x
  · have hidx : (c - base) / 8 < bm.length := by omega
    simp only [bitmapHas, setSackBit, hx, decide_True, Bool.true_and,
      List.getD_eq_getElem?_getD, List.getElem?_modify]
    by_cases hbyte : (c - base) / 8 = (x - base) / 8
    · rw [List.getElem?_eq_getElem (hbyte ▸ hidx)]
      simp only [hbyte, if_true, Option.map_eq_map, Option.map_some', Option.getD_some,
        Nat.testBit_or, Nat.one_shiftLeft, Nat.testBit_two_pow]
      congr 1
      simp only [decide_eq_decide]
      omega
    · simp only [hbyte, if_false, Option.map_eq_map, Option.map_id']
      have : x ≠ c := fun h => hbyte (h ▸ rfl)
      simp [this]
  · have : x ≠ c := fun h => hx (h ▸ hc)
    simp [bitmapHas, hx, this]

theorem bitmapHas_foldl_setSackBit (base : Nat) (l : List Nat) (bm : Bytes)
    (hl : ∀ c ∈ l, base ≤ c ∧ c - base < 8 * bm.length) (x : Nat) :
    bitmapHas base (l.foldl (setSackBit base) bm) x = (bitmapHas base bm x || decide (x ∈ l)) := by
  induction l generalizing bm with
  | nil => simp
  | cons c cs ih =>
    have hc := hl c (List.mem_cons_self _ _)
    rw [List.foldl_cons, ih _ (fun d hd => by
      simpa using hl d (List.mem_cons_of_mem _ hd)), bitmapHas_setSackBit hc.1 hc.2]
    simp [Bool.or_assoc]

theorem le_sup_of_mem {S : Finset Nat} {x : Nat} (hx : x ∈ S) : x ≤ S.sup id :=
  @Finset.le_sup _ _ _ _ S id x hx

/-- The bitmap of `_compute_sack_window` has the bit of every id of the set from the least
    absent id on, up to `MAX_SACK_WINDOW_BITS` ids, and no other. -/
theorem bitmapHas_computeSackWindow (l : List Nat) (x : Nat) :
    bitmapHas (leastAbsent l.toFinset) (computeSackWindow l).2 x =
      decide (x ∈ l.toFinset ∧ leastAbsent l.toFinset ≤ x ∧
        x < leastAbsent l.toFinset + maxSackWindowBits) := by
  unfold computeSackWindow
  dsimp only
  rw [watermarkScan_sortedIds]
  split_ifs with h hmax
  · simp [h]
  · simp only [bitmapHas_nil, false_eq_decide_iff, not_and, not_lt]
    intro hx hL
    have := le_sup_of_mem hx
    omega
  · have hbase : ((leastAbsent l.toFinset : Int) - 1 + 1).toNat = leastAbsent l.toFinset := by
      omega
    rw [hbase, bitmapHas_foldl_setSackBit, bitmapHas_replicate_zero, Bool.false_or]
    · simp only [List.mem_filter, mem_sortedIds, decide_eq_true_eq, decide_eq_decide]
      constructor
      · rintro ⟨hx, h1, h2⟩
        exact ⟨hx, by omega, by simp only [maxSackWindowBits] at h2 ⊢; omega⟩
      · rintro ⟨hx, h1, h2⟩
        have := le_sup_of_mem hx
        exact ⟨hx, by omega, by simp only [maxSackWindowBits] at h2 ⊢; omega⟩
    · intro c hc
      simp only [List.mem_filter, decide_eq_true_eq, List.length_replicate,
        maxSackWindowBits] at hc ⊢
      omega

theorem length_computeSackWindow_snd (l : List Nat) :
    (computeSackWindow l).2.length ≤ maxSackWindowBits / 8 := by
  unfold computeSackWindow
  dsimp only
  rw [watermarkScan_sortedIds]
  split_ifs <;> simp only [length_foldl_setSackBit, List.length_replicate, List.length_nil,
    maxSackWindowBits] <;> omega

end Courier
