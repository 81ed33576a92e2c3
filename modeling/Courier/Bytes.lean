import Mathlib.Data.List.Basic
import Mathlib.Algebra.Order.Group.Nat

/-
  Courier: byte strings and the three standard-library codecs the wire format is built from.

  `Bytes` is a Python `bytes` value, one natural per byte. `toBE`/`ofBE` are the unsigned
  big-endian fields of `struct.pack("!…")` (`packUInt` fails where Python raises
  `struct.error`), `fixedField` is a `"16s"` field, `rstripNul` is `rstrip(b"\0")`,
  `utf8Encode`/`utf8Decode` are `str.encode("utf-8")` and strict `bytes.decode("utf-8")`, and
  `crc32` is `zlib.crc32`. Main facts: `ofBE_toBE` (a field reads back its value),
  `utf8Decode_utf8Encode` on ASCII text, and `bundleField_roundTrip`, the 16-byte bundle-id
  field of every header reading back a bundle id of 1 to 16 ASCII characters without NUL.
-/

namespace Courier

/-- A Python `bytes` value: one natural per byte. -/
abbrev Bytes := List Nat

/-! ## Big-endian fields -/

/-- The `w` big-endian bytes of `n % 256 ^ w`. -/
def toBE : Nat → Nat → Bytes
  | 0, _ => []
  | w + 1, n => toBE w (n / 256) ++ [n % 256]

/-- The unsigned big-endian value of a byte string. -/
def ofBE (bs : Bytes) : Nat := bs.foldl (fun acc b => acc * 256 + b) 0

/-- One unsigned field of `struct.pack`: `none` where Python raises `struct.error`. -/
def packUInt (w n : Nat) : Option Bytes := if n < 256 ^ w then some (toBE w n) else none

@[simp] theorem length_toBE (w n : Nat) : (toBE w n).length = w := by
  induction w generalizing n with
  | zero => rfl
  | succ w ih => simp [toBE, ih]

theorem ofBE_append (bs : Bytes) (b : Nat) : ofBE (bs ++ [b]) = ofBE bs * 256 + b := by
  simp [ofBE, List.foldl_append]

theorem ofBE_toBE (w n : Nat) : ofBE (toBE w n) = n % 256 ^ w := by
  induction w generalizing n with
  | zero => simp [toBE, ofBE, Nat.mod_one]
  | succ w ih =>
    rw [toBE, ofBE_append, ih, Nat.pow_succ', Nat.mod_mul, Nat.add_comm, Nat.mul_comm]

theorem ofBE_toBE_of_lt {w n : Nat} (h : n < 256 ^ w) : ofBE (toBE w n) = n := by
  rw [ofBE_toBE, Nat.mod_eq_of_lt h]

theorem packUInt_eq_some {w n : Nat} (h : n < 256 ^ w) : packUInt w n = some (toBE w n) :=
  if_pos h

/-! ## NUL-padded text fields -/

/-- `bs.ljust(n, b"\0")`. -/
def ljustNul (bs : Bytes) (n : Nat) : Bytes := bs ++ List.replicate (n - bs.length) 0

/-- A `struct` field `"ns"`: the bytes truncated or NUL-padded to exactly `n`. -/
def fixedField (n : Nat) (bs : Bytes) : Bytes := (bs ++ List.replicate n 0).take n

/-- `bs.rstrip(b"\0")`. -/
def rstripNul (bs : Bytes) : Bytes := (bs.reverse.dropWhile (· = 0)).reverse

@[simp] theorem length_fixedField (n : Nat) (bs : Bytes) : (fixedField n bs).length = n := by
  simp [fixedField]

theorem rstripNul_append_replicate (bs : Bytes) (m : Nat) (h : ∀ b ∈ bs.getLast?, b ≠ 0) :
    rstripNul (bs ++ List.replicate m 0) = bs := by
  have h0 : bs.reverse.dropWhile (· = 0) = bs.reverse := by
    cases hb : bs.reverse with
    | nil => rfl
    | cons x xs =>
      have hx : x ≠ 0 := h x (by rw [← List.head?_reverse, hb]; rfl)
      simp [List.dropWhile_cons, hx]
  unfold rstripNul
  rw [List.reverse_append, List.reverse_replicate]
  induction m with
  | zero => simp [h0]
  | succ m ih => simpa [List.replicate_succ, List.dropWhile_cons] using ih

/-! ## UTF-8 -/

/-- `str.encode("utf-8")`. -/
def utf8Encode (cs : List Char) : Bytes :=
  cs.flatMap fun c => (String.utf8EncodeChar c).map UInt8.toNat

/-- A UTF-8 continuation byte `10xxxxxx`. -/
def isCont (b : Nat) : Bool := 0x80 ≤ b && b < 0xC0

/-- The character a UTF-8 sequence at the head of `bs` encodes, and the bytes after it; `none`
    where strict decoding raises (an overlong form, a surrogate, a value past U+10FFFF, a bad or
    missing continuation byte). -/
def utf8DecodeChar? : Bytes → Option (Char × Bytes)
  | [] => none
  | b :: bs =>
    if b < 0x80 then some (Char.ofNat b, bs)
    else if 0xC2 ≤ b ∧ b < 0xE0 then
      match bs with
      | b1 :: bs1 =>
        if isCont b1 then some (Char.ofNat ((b - 0xC0) * 64 + (b1 - 0x80)), bs1) else none
      | [] => none
    else if 0xE0 ≤ b ∧ b < 0xF0 then
      match bs with
      | b1 :: b2 :: bs2 =>
        if (if b = 0xE0 then 0xA0 else 0x80) ≤ b1 ∧ b1 < (if b = 0xED then 0xA0 else 0xC0) ∧
            isCont b2 then
          some (Char.ofNat (((b - 0xE0) * 64 + (b1 - 0x80)) * 64 + (b2 - 0x80)), bs2)
        else none
      | _ => none
    else if 0xF0 ≤ b ∧ b < 0xF5 then
      match bs with
      | b1 :: b2 :: b3 :: bs3 =>
        if (if b = 0xF0 then 0x90 else 0x80) ≤ b1 ∧ b1 < (if b = 0xF4 then 0x90 else 0xC0) ∧
            isCont b2 ∧ isCont b3 then
          some (Char.ofNat ((((b - 0xF0) * 64 + (b1 - 0x80)) * 64 + (b2 - 0x80)) * 64 +
            (b3 - 0x80)), bs3)
        else none
      | _ => none
    else none

/-- Decode character after character; `fuel` bounds the number of characters. -/
def utf8DecodeLoop : Nat → Bytes → Option (List Char)
  | _, [] => some []
  | 0, _ :: _ => none
  | fuel + 1, b :: bs =>
    match utf8DecodeChar? (b :: bs) with
    | some (c, rest) => (c :: ·) <$> utf8DecodeLoop fuel rest
    | none => none

/-- Strict `bytes.decode("utf-8")`: `none` where Python raises `UnicodeDecodeError`. -/
def utf8Decode (bs : Bytes) : Option (List Char) := utf8DecodeLoop bs.length bs

/-- Text that is ASCII and free of NUL: every character in `1 … 127`. -/
def AsciiNoNul (cs : List Char) : Prop := ∀ c ∈ cs, 0 < c.toNat ∧ c.toNat < 128

instance (cs : List Char) : Decidable (AsciiNoNul cs) := inferInstanceAs (Decidable (∀ c ∈ cs, _))

theorem utf8EncodeChar_ascii {c : Char} (h : c.toNat < 128) :
    (String.utf8EncodeChar c).map UInt8.toNat = [c.toNat] := by
  have hv : c.val ≤ 0x7f := UInt32.le_def.mpr (BitVec.le_def.mpr (by show c.toNat ≤ 127; omega))
  simp only [String.utf8EncodeChar, hv, if_true, List.map_cons, List.map_nil, List.cons.injEq,
    and_true]
  show (UInt8.ofNat c.toNat).toNat = c.toNat
  exact UInt8.toNat_ofNat_of_lt (by show c.toNat < 256; omega)

theorem utf8Encode_cons (c : Char) (cs : List Char) :
    utf8Encode (c :: cs) = (String.utf8EncodeChar c).map UInt8.toNat ++ utf8Encode cs := rfl

theorem utf8Encode_ascii {cs : List Char} (h : AsciiNoNul cs) :
    utf8Encode cs = cs.map Char.toNat := by
  induction cs with
  | nil => rfl
  | cons c cs ih =>
    rw [utf8Encode_cons, utf8EncodeChar_ascii (h c (List.mem_cons_self _ _)).2,
      ih fun d hd => h d (List.mem_cons_of_mem _ hd)]
    rfl

theorem utf8DecodeLoop_ascii {cs : List Char} (h : ∀ c ∈ cs, c.toNat < 128) (fuel : Nat)
    (hf : cs.length ≤ fuel) : utf8DecodeLoop fuel (cs.map Char.toNat) = some cs := by
  induction cs generalizing fuel with
  | nil => cases fuel <;> rfl
  | cons c cs ih =>
    obtain ⟨fuel, rfl⟩ : ∃ f, fuel = f + 1 := ⟨fuel - 1, by simp at hf; omega⟩
    have hc : c.toNat < 0x80 := h c (List.mem_cons_self _ _)
    simp only [List.map_cons, utf8DecodeLoop, utf8DecodeChar?, hc, if_true, Char.ofNat_toNat,
      ih (fun d hd => h d (List.mem_cons_of_mem _ hd)) fuel (by simpa using hf)]
    rfl

theorem utf8Decode_ascii {cs : List Char} (h : ∀ c ∈ cs, c.toNat < 128) :
    utf8Decode (cs.map Char.toNat) = some cs :=
  utf8DecodeLoop_ascii h _ (by simp)

theorem utf8Decode_utf8Encode {cs : List Char} (h : AsciiNoNul cs) :
    utf8Decode (utf8Encode cs) = some cs := by
  rw [utf8Encode_ascii h]
  exact utf8Decode_ascii fun c hc => (h c hc).2

/-! ## The bundle-id field -/

/-- A bundle id as the codec carries it: 1 to 16 ASCII characters, none of them NUL. -/
def BundleIdOk (bid : String) : Prop := AsciiNoNul bid.data ∧ 0 < bid.length ∧ bid.length ≤ 16

instance (bid : String) : Decidable (BundleIdOk bid) := inferInstanceAs (Decidable (_ ∧ _))

/-- `bundle_id[:16].encode("utf-8").ljust(16, b"\0")`, packed as `"16s"`. -/
def bundleField (bid : String) : Bytes := fixedField 16 (ljustNul (utf8Encode (bid.data.take 16)) 16)

/-- `field.rstrip(b"\0").decode("utf-8")`. -/
def readBundleField (field : Bytes) : Option String := (utf8Decode (rstripNul field)).map String.mk

@[simp] theorem length_bundleField (bid : String) : (bundleField bid).length = 16 := by
  simp [bundleField]

theorem bundleField_ascii {bid : String} (h : BundleIdOk bid) :
    bundleField bid = bid.data.map Char.toNat ++ List.replicate (16 - bid.data.length) 0 := by
  obtain ⟨ha, -, hlen⟩ := h
  have hlen' : bid.data.length ≤ 16 := hlen
  simp only [bundleField, fixedField, ljustNul, List.take_of_length_le hlen', utf8Encode_ascii ha,
    List.length_map]
  exact List.take_left' (by simp; omega)

theorem bundleField_roundTrip {bid : String} (h : BundleIdOk bid) :
    readBundleField (bundleField bid) = some bid := by
  have hlast : ∀ b ∈ (bid.data.map Char.toNat).getLast?, b ≠ 0 := by
    intro b hb
    obtain ⟨c, hc, rfl⟩ := List.mem_map.mp (List.mem_of_mem_getLast? hb)
    exact Nat.pos_iff_ne_zero.mp (h.1 c hc).1
  rw [readBundleField, bundleField_ascii h, rstripNul_append_replicate _ _ hlast,
    utf8Decode_ascii fun c hc => (h.1 c hc).2]
  rfl

/-! ## CRC-32 -/

/-- One bit of the reflected CRC-32 shift register (polynomial `0xEDB88320`). -/
def crc32Shift (c : Nat) : Nat := if c % 2 = 1 then c / 2 ^^^ 0xEDB88320 else c / 2

/-- `zlib.crc32(data) & 0xFFFFFFFF`. -/
def crc32 (bs : Bytes) : Nat :=
  bs.foldl (fun c b => crc32Shift^[8] (c ^^^ b)) 0xFFFFFFFF ^^^ 0xFFFFFFFF

set_option maxRecDepth 4000 in
example : crc32 [49, 50, 51, 52, 53, 54, 55, 56, 57] = 0xCBF43926 := by decide

end Courier
