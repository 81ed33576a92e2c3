import Courier.Protocol
import Mathlib.Data.Nat.Bitwise

/-
  Courier: the binary wire format of `NetworkIO` (`network_io.py`).

  `serializeMessage` is `_serialize_message`: the packed header of the message's kind (a type
  byte, the 16-byte bundle-id field, big-endian fields), then the payload, the SACK bitmap or
  the JSON text of the ranges; `none` where `struct.pack` raises. `deserializeMessage` is
  `_deserialize_message`: `none` where Python returns `None` or raises, the decoded dictionary
  otherwise, and for a type byte outside `1 … 5` whatever `json.loads` makes of the datagram.
  `Decoded` is what the decoder can return: custody ranges come back as `tuple(r)` of each
  loaded item, and a SACK carries the `acked_chunks` rebuilt by `sackAckedSet`.

  Main results: `sack_roundTrip` (a SACK built by `make_sack_msg` decodes to the set it was
  built from, cut 2048 ids above the watermark), `codec_roundTrip` (the other four kinds come
  back field-equal behind their fixed headers) and the decoder's `None` cases.
-/

namespace Courier

open Json

/-! ## Packing -/

/-- `data[a:a+n]`. -/
def slice (data : Bytes) (a n : Nat) : Bytes := (data.drop a).take n

/-- Consecutive fields of the given widths. -/
def cut : List Nat → Bytes → List Bytes
  | [], _ => []
  | w :: ws, data => data.take w :: cut ws (data.drop w)

/-- `struct.unpack` of a format whose fields are `widths` bytes wide: `struct.error` unless the
    buffer is exactly as long as the format. -/
def unpack (widths : List Nat) (data : Bytes) : Option (List Bytes) :=
  if data.length = widths.sum then some (cut widths data) else none

/-! ## Decoded messages -/

/-- What `_deserialize_message` can return besides `None`. -/
inductive Decoded where
  | data (m : DataMsg)
  | sack (m : SackMsg)
  | custodyReq (bundleId : String) (ttlRemaining : Nat) (ranges : List (List JsonValue))
  | custodyAck (bundleId : String) (ranges : List (List JsonValue)) (ackNonce : Nat)
  | delivered (m : DeliveredMsg)
  | json (v : JsonValue)

/-! ## Encoding -/

/-- `_serialize_data_message`: `"!B16sIIIHHIBH"` (40 bytes), then the payload. -/
def serializeDataMessage (m : DataMsg) : Option Bytes := do
  let chunkId ← packUInt 4 m.chunkId
  let totalChunks ← packUInt 4 m.totalChunks
  let blockId ← packUInt 4 m.blockId
  let k ← packUInt 2 m.k
  let r ← packUInt 2 m.r
  let checksum ← packUInt 4 m.checksum
  let payloadLen ← packUInt 2 m.payload.length
  return [[1], bundleField m.bundleId, chunkId, totalChunks, blockId, k, r, checksum, [0],
    payloadLen].flatten ++ m.payload

/-- `_serialize_sack_message`: `"!B16sIH"` (23 bytes), then the bitmap cut to 256 bytes; a
    negative watermark goes out as `0xFFFFFFFF`. -/
def serializeSackMessage (m : SackMsg) : Option Bytes := do
  let rawWatermark := if m.recvWatermark < 0 then 0xFFFFFFFF else m.recvWatermark.toNat
  let bitmap := if m.sackBitmap.length > maxSackWindowBits / 8
    then m.sackBitmap.take (maxSackWindowBits / 8) else m.sackBitmap
  let watermark ← packUInt 4 rawWatermark
  let bitmapLen ← packUInt 2 bitmap.length
  return [[2], bundleField m.bundleId, watermark, bitmapLen].flatten ++ bitmap

/-- `_serialize_custody_req_message`: `"!B16sIH"` (23 bytes), then `json.dumps(ranges)`. -/
def serializeCustodyReqMessage (m : CustodyReqMsg) : Option Bytes := do
  let rangesData := utf8Encode (dumpsRanges m.ranges)
  let ttl ← packUInt 4 m.ttlRemaining
  let rangesLen ← packUInt 2 rangesData.length
  return [[3], bundleField m.bundleId, ttl, rangesLen].flatten ++ rangesData

/-- `_serialize_custody_ack_message`: `"!B16sQH"` (27 bytes), then `json.dumps(ranges)`. -/
def serializeCustodyAckMessage (m : CustodyAckMsg) : Option Bytes := do
  let rangesData := utf8Encode (dumpsRanges m.ranges)
  let ackNonce ← packUInt 8 m.ackNonce
  let rangesLen ← packUInt 2 rangesData.length
  return [[4], bundleField m.bundleId, ackNonce, rangesLen].flatten ++ rangesData

/-- `_serialize_delivered_message`: `"!B16s"` (17 bytes). -/
def serializeDeliveredMessage (m : DeliveredMsg) : Option Bytes :=
  some [[5], bundleField m.bundleId].flatten

/-- `_serialize_message` on the five kinds (its `json.dumps` branch takes the other
    `msg_type`s, which no engine builds). -/
def serializeMessage : Message → Option Bytes
  | .data m => serializeDataMessage m
  | .sack m => serializeSackMessage m
  | .custodyReq m => serializeCustodyReqMessage m
  | .custodyAck m => serializeCustodyAckMessage m
  | .delivered m => serializeDeliveredMessage m

/-! ## Decoding -/

/-- The ids of the set bits of a SACK bitmap: bit `7 - bitPos` of byte `byteIndex` stands for
    `base + byteIndex * 8 + bitPos`. -/
def bitmapIds (base : Nat) : Nat → Bytes → Finset Nat
  | _, [] => ∅
  | byteIndex, b :: bs =>
    ((Finset.range 8).filter fun bitPos => b &&& 1 <<< (7 - bitPos) ≠ 0).image
        (fun bitPos => base + byteIndex * 8 + bitPos) ∪
      bitmapIds base (byteIndex + 1) bs

/-- The `acked_chunks` set `_deserialize_sack_message` rebuilds: every id up to the watermark,
    and the ids of the bitmap above it. -/
def sackAckedSet (recvWatermark : Int) (bitmap : Bytes) : Finset Nat :=
  (if 0 ≤ recvWatermark then Finset.range (recvWatermark + 1).toNat else ∅) ∪
    bitmapIds (recvWatermark + 1).toNat 0 bitmap

/-- `_deserialize_data_message`. -/
def deserializeDataMessage (data : Bytes) : Option Decoded :=
  match unpack [1, 16, 4, 4, 4, 2, 2, 4, 1, 2] (data.take 40) with
  | some [_, bid, chunkId, totalChunks, blockId, k, r, checksum, _, payloadLen] => do
    let bundleId ← readBundleField bid
    return .data ⟨bundleId, ofBE chunkId, ofBE totalChunks, ofBE blockId, ofBE k, ofBE r,
      ofBE checksum, slice data 40 (ofBE payloadLen)⟩
  | _ => none

/-- `_deserialize_sack_message`. -/
def deserializeSackMessage (data : Bytes) : Option Decoded :=
  match unpack [1, 16, 4, 2] (data.take 23) with
  | some [_, bid, rawWatermark, bitmapLen] => do
    let bundleId ← readBundleField bid
    let recvWatermark : Int := if ofBE rawWatermark = 0xFFFFFFFF then -1 else ofBE rawWatermark
    let bitmap := slice data 23 (ofBE bitmapLen)
    return .sack ⟨bundleId, recvWatermark, bitmap, some (sortedIds (sackAckedSet recvWatermark bitmap))⟩
  | _ => none

/-- `[tuple(r) for r in json.loads(text)]`. -/
def loadRanges (text : List Char) : Option (List (List JsonValue)) := do
  let rangesRaw ← loads text
  let items ← iterJson rangesRaw
  items.mapM iterJson

/-- `_deserialize_custody_req_message`. -/
def deserializeCustodyReqMessage (data : Bytes) : Option Decoded :=
  match unpack [1, 16, 4, 2] (data.take 23) with
  | some [_, bid, ttl, rangesLen] => do
    let bundleId ← readBundleField bid
    let text ← utf8Decode (slice data 23 (ofBE rangesLen))
    let ranges ← loadRanges text
    return .custodyReq bundleId (ofBE ttl) ranges
  | _ => none

/-- `_deserialize_custody_ack_message`. -/
def deserializeCustodyAckMessage (data : Bytes) : Option Decoded :=
  match unpack [1, 16, 8, 2] (data.take 27) with
  | some [_, bid, ackNonce, rangesLen] => do
    let bundleId ← readBundleField bid
    let text ← utf8Decode (slice data 27 (ofBE rangesLen))
    let ranges ← loadRanges text
    return .custodyAck bundleId ranges (ofBE ackNonce)
  | _ => none

/-- `_deserialize_delivered_message`. -/
def deserializeDeliveredMessage (data : Bytes) : Option Decoded :=
  match unpack [1, 16] (data.take 17) with
  | some [_, bid] => do
    let bundleId ← readBundleField bid
    return .delivered ⟨bundleId⟩
  | _ => none

/-- The `else` branch: `json.loads(data.decode("utf-8"))`, whose `null` is Python's `None`. -/
def deserializeJson (data : Bytes) : Option Decoded := do
  let v ← (utf8Decode data).bind loads
  match v with
  | .null => none
  | v => some (.json v)

/-- `_deserialize_message`: dispatch on the type byte. -/
def deserializeMessage : Bytes → Option Decoded
  | [] => none
  | msgType :: rest =>
    let data := msgType :: rest
    if msgType = 1 then deserializeDataMessage data
    else if msgType = 2 then deserializeSackMessage data
    else if msgType = 3 then deserializeCustodyReqMessage data
    else if msgType = 4 then deserializeCustodyAckMessage data
    else if msgType = 5 then deserializeDeliveredMessage data
    else deserializeJson data

/-- Python truthiness of a decoded message: an empty container, `0` and `False` are false. -/
def Decoded.truthy : Decoded → Bool
  | .json .null => false
  | .json (.bool b) => b
  | .json (.int n) => n ≠ 0
  | .json (.str s) => !s.isEmpty
  | .json (.arr xs) => !xs.isEmpty
  | .json (.obj kvs) => !kvs.isEmpty
  | _ => true

/-- One pass of `_receive_loop`: `recvfrom(1200)`, decode, and the message handed to
    `message_handler` if it is truthy. -/
def receiveDatagram (datagram : Bytes) : Option Decoded :=
  match deserializeMessage (datagram.take 1200) with
  | some m => if m.truthy then some m else none
  | none => none

/-! ## The acked set of a SACK -/

theorem and_one_shiftLeft_ne_zero (b k : Nat) : b &&& 1 <<< k ≠ 0 ↔ b.testBit k = true := by
  rw [Nat.one_shiftLeft, Nat.and_two_pow]
  cases b.testBit k <;> simp

/-- The decoder's loop over the bitmap reads the bits the encoder set (`bitmapHas`). -/
theorem mem_bitmapIds (base i : Nat) (bs : Bytes) (x : Nat) :
    x ∈ bitmapIds base i bs ↔ bitmapHas (base + i * 8) bs x = true := by
  induction bs generalizing i with
  | nil => simp [bitmapIds]
  | cons b bs ih =>
    simp only [bitmapIds, Finset.mem_union, Finset.mem_image, Finset.mem_filter, Finset.mem_range,
      and_one_shiftLeft_ne_zero, ih, bitmapHas_cons, Bool.or_eq_true, Bool.and_eq_true,
      decide_eq_true_eq]
    have hi : base + (i + 1) * 8 = base + i * 8 + 8 := by ring
    rw [hi]
    constructor
    · rintro (⟨j, ⟨hj, hb⟩, rfl⟩ | h)
      · exact Or.inl ⟨by omega, by rwa [show base + i * 8 + j - (base + i * 8) = j by omega]⟩
      · exact Or.inr h
    · rintro (⟨hx, hb⟩ | h)
      · exact Or.inl ⟨x - (base + i * 8), ⟨by omega, hb⟩, by omega⟩
      · exact Or.inr h

theorem computeSackWindow_fst_ge (l : List Nat) : -1 ≤ (computeSackWindow l).1 := by
  rw [computeSackWindow_fst]; omega

theorem computeSackWindow_fst_lt {l : List Nat} (hl : ∀ c ∈ l, c < 2 ^ 32 - 1) :
    (computeSackWindow l).1 < 2 ^ 32 - 1 := by
  rw [computeSackWindow_fst]
  rcases Nat.eq_zero_or_pos (leastAbsent l.toFinset) with h | h
  · omega
  · have := hl _ (List.mem_toFinset.mp (mem_of_lt_leastAbsent (Nat.sub_lt h Nat.one_pos)))
    omega

/-- The set the decoder rebuilds from `_compute_sack_window`'s output is the acked set cut
    `MAX_SACK_WINDOW_BITS` ids above the watermark. -/
theorem sackAckedSet_computeSackWindow (l : List Nat) :
    sackAckedSet (computeSackWindow l).1 (computeSackWindow l).2 =
      l.toFinset.filter fun (c : Nat) => (c : Int) ≤ (computeSackWindow l).1 + maxSackWindowBits := by
  have hw := computeSackWindow_fst l
  have hbase : ((computeSackWindow l).1 + 1).toNat = leastAbsent l.toFinset := by omega
  ext x
  have hlow : x ∈ (if 0 ≤ (computeSackWindow l).1 then Finset.range (leastAbsent l.toFinset)
      else ∅) ↔ x < leastAbsent l.toFinset := by
    split_ifs <;> simp; omega
  simp only [sackAckedSet, Finset.mem_union, hlow, mem_bitmapIds, hbase, zero_mul, add_zero,
    bitmapHas_computeSackWindow, decide_eq_true_eq, Finset.mem_filter]
  constructor
  · rintro (h | ⟨hx, -, h⟩)
    · exact ⟨mem_of_lt_leastAbsent h, by simp only [maxSackWindowBits]; omega⟩
    · exact ⟨hx, by omega⟩
  · rintro ⟨hx, h⟩
    by_cases hL : x < leastAbsent l.toFinset
    · exact Or.inl hL
    · exact Or.inr ⟨hx, by omega, by omega⟩

/-! ## Unpacking what was packed -/

theorem cut_flatten (fs : List Bytes) : cut (fs.map List.length) fs.flatten = fs := by
  induction fs with
  | nil => rfl
  | cons f fs ih => simp [cut, ih]

theorem unpack_flatten (fs : List Bytes) (ws : List Nat) (h : fs.map List.length = ws) :
    unpack ws fs.flatten = some fs := by
  subst h
  simp [unpack, List.length_flatten, cut_flatten]

theorem unpack_take_of_lt (ws : List Nat) {n : Nat} {data : Bytes} (h : data.length < n)
    (hn : ws.sum = n) : unpack ws (data.take n) = none := by
  subst hn
  simp [unpack, Nat.min_eq_left h.le, h.ne, h]

theorem take_header (header body : Bytes) : (header ++ body).take header.length = header :=
  List.take_left _ _

theorem loadRanges_dumpsRanges (rs : List (Int × Int)) :
    loadRanges (dumpsRanges rs) = some (rs.map rangeTuple) := by
  simp only [loadRanges, loads_dumpsRanges, Option.bind_eq_bind, Option.some_bind, iterJson]
  exact iterJson_pairs rs

theorem deserializeMessage_of_head (data : Bytes) (t : Nat) (h : data.head? = some t) :
    deserializeMessage data =
      if t = 1 then deserializeDataMessage data
      else if t = 2 then deserializeSackMessage data
      else if t = 3 then deserializeCustodyReqMessage data
      else if t = 4 then deserializeCustodyAckMessage data
      else if t = 5 then deserializeDeliveredMessage data
      else deserializeJson data := by
  cases data with
  | nil => cases h
  | cons t' rest => cases h; rfl

/-! ## Round trips -/

/-- A DATA message that serializes has every field within its width, and its bytes are the
    40-byte header and the payload. -/
theorem serializeMessage_data_spec {m : DataMsg} {d : Bytes}
    (h : serializeMessage (.data m) = some d) :
    (m.chunkId < 2 ^ 32 ∧ m.totalChunks < 2 ^ 32 ∧ m.blockId < 2 ^ 32 ∧ m.k < 2 ^ 16 ∧
      m.r < 2 ^ 16 ∧ m.checksum < 2 ^ 32 ∧ m.payload.length < 2 ^ 16) ∧
      d.length = 40 + m.payload.length := by
  simp only [serializeMessage, serializeDataMessage, Option.bind_eq_bind, Option.bind_eq_some,
    packUInt, Option.ite_none_right_eq_some, Option.pure_def, Option.some.injEq] at h
  obtain ⟨_, ⟨h1, rfl⟩, _, ⟨h2, rfl⟩, _, ⟨h3, rfl⟩, _, ⟨h4, rfl⟩, _, ⟨h5, rfl⟩, _, ⟨h6, rfl⟩, _,
    ⟨h7, rfl⟩, rfl⟩ := h
  refine ⟨⟨h1, h2, h3, h4, h5, h6, h7⟩, ?_⟩
  simp
  omega

theorem data_roundTrip (m : DataMsg) (hbid : BundleIdOk m.bundleId) (hc : m.chunkId < 2 ^ 32)
    (ht : m.totalChunks < 2 ^ 32) (hb : m.blockId < 2 ^ 32) (hk : m.k < 2 ^ 16) (hr : m.r < 2 ^ 16)
    (hs : m.checksum < 2 ^ 32) (hp : m.payload.length < 2 ^ 16) :
    ∃ header, serializeMessage (.data m) = some (header ++ m.payload) ∧ header.length = 40 ∧
      header.head? = some 1 ∧ deserializeMessage (header ++ m.payload) = some (.data m) := by
  let fields : List Bytes := [[1], bundleField m.bundleId, toBE 4 m.chunkId, toBE 4 m.totalChunks,
    toBE 4 m.blockId, toBE 2 m.k, toBE 2 m.r, toBE 4 m.checksum, [0], toBE 2 m.payload.length]
  have hlen : fields.flatten.length = 40 := by simp [fields]
  refine ⟨fields.flatten, ?_, hlen, rfl, ?_⟩
  · simp (disch := omega) only [serializeMessage, serializeDataMessage, packUInt_eq_some]
    rfl
  · have hdrop : (fields.flatten ++ m.payload).drop 40 = m.payload := by
      rw [← hlen]; exact List.drop_left _ _
    rw [deserializeMessage_of_head (fields.flatten ++ m.payload) 1 rfl, if_pos rfl, deserializeDataMessage, ← hlen, take_header,
      hlen, unpack_flatten fields _ (by simp [fields])]
    simp only [slice, hdrop]
    simp (disch := omega) only [fields, bundleField_roundTrip hbid, ofBE_toBE_of_lt,
      List.take_length]
    rfl

theorem custodyReq_roundTrip (m : CustodyReqMsg) (hbid : BundleIdOk m.bundleId)
    (ht : m.ttlRemaining < 2 ^ 32) (hr : (utf8Encode (dumpsRanges m.ranges)).length < 2 ^ 16) :
    ∃ header, serializeMessage (.custodyReq m) = some (header ++ utf8Encode (dumpsRanges m.ranges)) ∧
      header.length = 23 ∧ header.head? = some 3 ∧
      deserializeMessage (header ++ utf8Encode (dumpsRanges m.ranges)) =
        some (.custodyReq m.bundleId m.ttlRemaining (m.ranges.map rangeTuple)) := by
  let text := utf8Encode (dumpsRanges m.ranges)
  let fields : List Bytes := [[3], bundleField m.bundleId, toBE 4 m.ttlRemaining, toBE 2 text.length]
  have hlen : fields.flatten.length = 23 := by simp [fields]
  refine ⟨fields.flatten, ?_, hlen, rfl, ?_⟩
  · simp (disch := omega) only [serializeMessage, serializeCustodyReqMessage, packUInt_eq_some]
    rfl
  · have hdrop : (fields.flatten ++ text).drop 23 = text := by
      rw [← hlen]; exact List.drop_left _ _
    rw [deserializeMessage_of_head (fields.flatten ++ text) 3 rfl, if_neg (by decide), if_neg (by decide), if_pos rfl,
      deserializeCustodyReqMessage, ← hlen, take_header, hlen,
      unpack_flatten fields _ (by simp [fields])]
    simp only [slice, hdrop]
    simp (disch := omega) only [fields, bundleField_roundTrip hbid, ofBE_toBE_of_lt,
      List.take_length, text, utf8Decode_utf8Encode (ascii_dumpsRanges _), Option.bind_eq_bind,
      Option.some_bind, loadRanges_dumpsRanges]
    rfl

theorem custodyAck_roundTrip (m : CustodyAckMsg) (hbid : BundleIdOk m.bundleId)
    (hn : m.ackNonce < 2 ^ 64) (hr : (utf8Encode (dumpsRanges m.ranges)).length < 2 ^ 16) :
    ∃ header, serializeMessage (.custodyAck m) = some (header ++ utf8Encode (dumpsRanges m.ranges)) ∧
      header.length = 27 ∧ header.head? = some 4 ∧
      deserializeMessage (header ++ utf8Encode (dumpsRanges m.ranges)) =
        some (.custodyAck m.bundleId (m.ranges.map rangeTuple) m.ackNonce) := by
  let text := utf8Encode (dumpsRanges m.ranges)
  let fields : List Bytes := [[4], bundleField m.bundleId, toBE 8 m.ackNonce, toBE 2 text.length]
  have hlen : fields.flatten.length = 27 := by simp [fields]
  refine ⟨fields.flatten, ?_, hlen, rfl, ?_⟩
  · simp (disch := omega) only [serializeMessage, serializeCustodyAckMessage, packUInt_eq_some]
    rfl
  · have hdrop : (fields.flatten ++ text).drop 27 = text := by
      rw [← hlen]; exact List.drop_left _ _
    rw [deserializeMessage_of_head (fields.flatten ++ text) 4 rfl, if_neg (by decide),
      if_neg (by decide), if_neg (by decide), if_pos rfl, deserializeCustodyAckMessage, ← hlen,
      take_header, hlen, unpack_flatten fields _ (by simp [fields])]
    simp only [slice, hdrop]
    simp (disch := omega) only [fields, bundleField_roundTrip hbid, ofBE_toBE_of_lt,
      List.take_length, text, utf8Decode_utf8Encode (ascii_dumpsRanges _), Option.bind_eq_bind,
      Option.some_bind, loadRanges_dumpsRanges]
    rfl

theorem delivered_roundTrip (m : DeliveredMsg) (hbid : BundleIdOk m.bundleId) :
    ∃ header, serializeMessage (.delivered m) = some header ∧ header.length = 17 ∧
      header.head? = some 5 ∧ deserializeMessage header = some (.delivered m) := by
  let fields : List Bytes := [[5], bundleField m.bundleId]
  have hlen : fields.flatten.length = 17 := by simp [fields]
  refine ⟨fields.flatten, rfl, hlen, rfl, ?_⟩
  rw [deserializeMessage_of_head fields.flatten 5 rfl, if_neg (by decide), if_neg (by decide),
    if_neg (by decide), if_neg (by decide), if_pos rfl, deserializeDeliveredMessage,
    List.take_of_length_le hlen.le, unpack_flatten fields _ (by simp [fields])]
  simp only [fields, bundleField_roundTrip hbid, Option.bind_eq_bind, Option.some_bind]
  rfl

theorem serializeSackMessage_makeSackMsg (bid : String) (l : List Nat)
    (hl : ∀ c ∈ l, c < 2 ^ 32 - 1) :
    serializeMessage (makeSackMsg bid l) =
      some ([[2], bundleField bid,
        toBE 4 (if (computeSackWindow l).1 < 0 then 0xFFFFFFFF else (computeSackWindow l).1.toNat),
        toBE 2 (computeSackWindow l).2.length].flatten ++ (computeSackWindow l).2) := by
  have hlt := computeSackWindow_fst_lt hl
  have hbm := length_computeSackWindow_snd l
  simp only [maxSackWindowBits] at hbm
  simp only [serializeMessage, makeSackMsg, serializeSackMessage, maxSackWindowBits,
    if_neg (show ¬(computeSackWindow l).2.length > 2048 / 8 by omega)]
  rw [packUInt_eq_some (by split_ifs <;> omega), packUInt_eq_some (by omega)]
  rfl

/-- A SACK built by `make_sack_msg` from ids below `2 ^ 32 - 1` serializes to its 23-byte header
    and bitmap, and decodes to its window, with the ids of its bitmap as `acked_chunks`. -/
theorem makeSackMsg_decode (bid : String) (hbid : BundleIdOk bid) (l : List Nat)
    (hl : ∀ c ∈ l, c < 2 ^ 32 - 1) :
    ∃ d, serializeMessage (makeSackMsg bid l) = some d ∧
      d.length = 23 + (computeSackWindow l).2.length ∧
      deserializeMessage d = some (.sack ⟨bid, (computeSackWindow l).1, (computeSackWindow l).2,
        some (sortedIds (sackAckedSet (computeSackWindow l).1 (computeSackWindow l).2))⟩) := by
  have hge := computeSackWindow_fst_ge l
  have hlt := computeSackWindow_fst_lt hl
  let w := (computeSackWindow l).1
  let bm := (computeSackWindow l).2
  let raw : Nat := if w < 0 then 0xFFFFFFFF else w.toNat
  have hdec : (if raw = 0xFFFFFFFF then (-1 : Int) else raw) = w := by
    simp only [raw]; split_ifs <;> omega
  let fields : List Bytes := [[2], bundleField bid, toBE 4 raw, toBE 2 bm.length]
  have hlen : fields.flatten.length = 23 := by simp [fields]
  have hdrop : (fields.flatten ++ bm).drop 23 = bm := by
    rw [← hlen]; exact List.drop_left _ _
  refine ⟨fields.flatten ++ bm, serializeSackMessage_makeSackMsg bid l hl, by simp [hlen], ?_⟩
  rw [deserializeMessage_of_head (fields.flatten ++ bm) 2 rfl, if_neg (by decide), if_pos rfl,
    deserializeSackMessage, ← hlen, take_header, hlen, unpack_flatten fields _ (by simp [fields])]
  simp only [slice, hdrop]
  have hbm : bm.length ≤ 256 := length_computeSackWindow_snd l
  simp (disch := omega) only [fields, bundleField_roundTrip hbid, ofBE_toBE_of_lt,
    List.take_length, hdec]
  rfl

/-- A SACK built by `make_sack_msg` from ids below `2 ^ 32 - 1` goes out and decodes to its bundle
    id and to the ids of the set up to 2048 past the watermark `w`, the last id of the run
    `0, 1, …` in the set: never an id outside the set, and the whole set when it ends by
    `w + 2048`. -/
theorem sack_roundTrip (bid : String) (hbid : BundleIdOk bid) (l : List Nat)
    (hl : ∀ c ∈ l, c < 2 ^ 32 - 1) :
    ∃ m : SackMsg, (serializeMessage (makeSackMsg bid l)).bind deserializeMessage = some (.sack m) ∧
      m.bundleId = bid ∧
      m.ackedChunks = some (sortedIds (l.toFinset.filter fun (c : Nat) =>
        (c : Int) ≤ (leastAbsent l.toFinset : Int) - 1 + 2048)) ∧
      (∀ acked, m.ackedChunks = some acked → ∀ c ∈ acked, c ∈ l) ∧
      ((∀ c ∈ l, (c : Int) ≤ (leastAbsent l.toFinset : Int) - 1 + 2048) →
        m.ackedChunks = some (sortedIds l.toFinset)) := by
  obtain ⟨d, hs, -, hd⟩ := makeSackMsg_decode bid hbid l hl
  have hfilter : (l.toFinset.filter fun (c : Nat) =>
      (c : Int) ≤ (leastAbsent l.toFinset : Int) - 1 + 2048) =
      sackAckedSet (computeSackWindow l).1 (computeSackWindow l).2 := by
    rw [sackAckedSet_computeSackWindow, computeSackWindow_fst l]; rfl
  refine ⟨_, by rw [hs]; exact hd, rfl, by rw [hfilter], ?_, ?_⟩
  · rintro acked ⟨⟩ c hc
    rw [← hfilter, mem_sortedIds, Finset.mem_filter, List.mem_toFinset] at hc
    exact hc.1
  · intro hall
    rw [← hfilter, Finset.filter_true_of_mem fun c hc => hall c (List.mem_toFinset.mp hc)]

theorem sack_roundTrip_bundleS :
    BundleIdOk "bundleS" ∧ (∀ c ∈ [0, 1, 2, 5, 7, 10], c < 2 ^ 32 - 1) ∧
    ∃ m : SackMsg, (serializeMessage (makeSackMsg "bundleS" [0, 1, 2, 5, 7, 10])).bind
      deserializeMessage = some (.sack m) ∧ m.bundleId = "bundleS" :=
  ⟨by decide, by decide,
    let ⟨m, h, hb, _⟩ := sack_roundTrip "bundleS" (by decide) [0, 1, 2, 5, 7, 10] (by decide)
    ⟨m, h, hb⟩⟩

/-- DATA, CUSTODY_REQ, CUSTODY_ACK and DELIVERED messages whose fields fit their struct formats
    go out as the fixed header of their kind followed by the payload or the JSON ranges, and
    decode back field-equal (each range as the tuple `tuple(r)` rebuilds). -/
theorem codec_roundTrip :
    (∀ m : DataMsg, BundleIdOk m.bundleId → m.chunkId < 2 ^ 32 → m.totalChunks < 2 ^ 32 →
      m.blockId < 2 ^ 32 → m.k < 2 ^ 16 → m.r < 2 ^ 16 → m.checksum < 2 ^ 32 →
      m.payload.length < 2 ^ 16 →
      ∃ header, serializeMessage (.data m) = some (header ++ m.payload) ∧ header.length = 40 ∧
        header.head? = some 1 ∧ deserializeMessage (header ++ m.payload) = some (.data m)) ∧
    (∀ m : CustodyReqMsg, BundleIdOk m.bundleId → m.ttlRemaining < 2 ^ 32 →
      (utf8Encode (dumpsRanges m.ranges)).length < 2 ^ 16 →
      ∃ header,
        serializeMessage (.custodyReq m) = some (header ++ utf8Encode (dumpsRanges m.ranges)) ∧
        header.length = 23 ∧ header.head? = some 3 ∧
        deserializeMessage (header ++ utf8Encode (dumpsRanges m.ranges)) =
          some (.custodyReq m.bundleId m.ttlRemaining (m.ranges.map rangeTuple))) ∧
    (∀ m : CustodyAckMsg, BundleIdOk m.bundleId → m.ackNonce < 2 ^ 64 →
      (utf8Encode (dumpsRanges m.ranges)).length < 2 ^ 16 →
      ∃ header,
        serializeMessage (.custodyAck m) = some (header ++ utf8Encode (dumpsRanges m.ranges)) ∧
        header.length = 27 ∧ header.head? = some 4 ∧
        deserializeMessage (header ++ utf8Encode (dumpsRanges m.ranges)) =
          some (.custodyAck m.bundleId (m.ranges.map rangeTuple) m.ackNonce)) ∧
    (∀ m : DeliveredMsg, BundleIdOk m.bundleId →
      ∃ header, serializeMessage (.delivered m) = some header ∧ header.length = 17 ∧
        header.head? = some 5 ∧ deserializeMessage header = some (.delivered m)) :=
  ⟨data_roundTrip, custodyReq_roundTrip, custodyAck_roundTrip, delivered_roundTrip⟩

theorem codec_roundTrip_bundle_b :
    (∃ header, serializeMessage (.data ⟨"b", 5, 10, 1, 4, 2, 7, [116]⟩) =
      some (header ++ [116]) ∧ header.length = 40 ∧ header.head? = some 1 ∧
      deserializeMessage (header ++ [116]) = some (.data ⟨"b", 5, 10, 1, 4, 2, 7, [116]⟩)) ∧
    (∃ header, serializeMessage (.custodyReq ⟨"b", 60, []⟩) =
      some (header ++ utf8Encode (dumpsRanges [])) ∧ header.length = 23 ∧ header.head? = some 3 ∧
      deserializeMessage (header ++ utf8Encode (dumpsRanges [])) = some (.custodyReq "b" 60 [])) ∧
    (∃ header, serializeMessage (.custodyAck ⟨"b", [], 9⟩) =
      some (header ++ utf8Encode (dumpsRanges [])) ∧ header.length = 27 ∧ header.head? = some 4 ∧
      deserializeMessage (header ++ utf8Encode (dumpsRanges [])) = some (.custodyAck "b" [] 9)) ∧
    (∃ header, serializeMessage (.delivered ⟨"b"⟩) = some header ∧ header.length = 17 ∧
      header.head? = some 5 ∧ deserializeMessage header = some (.delivered ⟨"b"⟩)) :=
  ⟨codec_roundTrip.1 _ (by decide) (by decide) (by decide) (by decide) (by decide) (by decide)
      (by decide) (by decide),
    codec_roundTrip.2.1 _ (by decide) (by decide) (by decide),
    codec_roundTrip.2.2.1 _ (by decide) (by decide) (by decide),
    codec_roundTrip.2.2.2 _ (by decide)⟩

/-! ## Datagrams the decoder drops -/

/-- The decoder returns `None` for an empty datagram and for one whose type byte is a known
    code but which is shorter than that code's header. -/
theorem deserializeMessage_eq_none_of_short (d : Bytes)
    (h : d = [] ∨ (d.head? = some 1 ∧ d.length < 40) ∨ (d.head? = some 2 ∧ d.length < 23) ∨
      (d.head? = some 3 ∧ d.length < 23) ∨ (d.head? = some 4 ∧ d.length < 27) ∨
      (d.head? = some 5 ∧ d.length < 17)) :
    deserializeMessage d = none := by
  rcases h with rfl | ⟨h, hl⟩ | ⟨h, hl⟩ | ⟨h, hl⟩ | ⟨h, hl⟩ | ⟨h, hl⟩
  · rfl
  · rw [deserializeMessage_of_head d 1 h, if_pos rfl, deserializeDataMessage,
      unpack_take_of_lt [1, 16, 4, 4, 4, 2, 2, 4, 1, 2] hl rfl]
  · rw [deserializeMessage_of_head d 2 h, if_neg (by decide), if_pos rfl, deserializeSackMessage,
      unpack_take_of_lt [1, 16, 4, 2] hl rfl]
  · rw [deserializeMessage_of_head d 3 h, if_neg (by decide), if_neg (by decide), if_pos rfl,
      deserializeCustodyReqMessage, unpack_take_of_lt [1, 16, 4, 2] hl rfl]
  · rw [deserializeMessage_of_head d 4 h, if_neg (by decide), if_neg (by decide),
      if_neg (by decide), if_pos rfl, deserializeCustodyAckMessage,
      unpack_take_of_lt [1, 16, 8, 2] hl rfl]
  · rw [deserializeMessage_of_head d 5 h, if_neg (by decide), if_neg (by decide),
      if_neg (by decide), if_neg (by decide), if_pos rfl, deserializeDeliveredMessage,
      unpack_take_of_lt [1, 16] hl rfl]

theorem deserializeMessage_eq_none_of_short_sack :
    ([2, 0, 0].head? = some 2 ∧ [2, 0, 0].length < 23) ∧ deserializeMessage [2, 0, 0] = none :=
  ⟨⟨rfl, by decide⟩, deserializeMessage_eq_none_of_short _ (Or.inr (Or.inr (Or.inl ⟨rfl, by decide⟩)))⟩

/-- A datagram whose first byte is `{` is not dropped: the JSON fallback decodes it to a
    dictionary with a `msg_type` of the sender's choosing, and the receive loop hands it on. -/
theorem receiveDatagram_json_delivered :
    (utf8Encode "\x7b\"msg_type\": \"DELIVERED\", \"bundle_id\": \"b\"\x7d".data).head? = some 123 ∧
    receiveDatagram (utf8Encode "\x7b\"msg_type\": \"DELIVERED\", \"bundle_id\": \"b\"\x7d".data) =
      some (.json (.obj [("msg_type".data, .str "DELIVERED".data), ("bundle_id".data, .str "b".data)])) :=
  ⟨rfl, rfl⟩

end Courier
