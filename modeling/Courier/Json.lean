import Courier.Bytes
import Mathlib.Data.Nat.Digits

/-
  Courier: the part of Python's `json` module the codec relies on.

  CUSTODY_REQ and CUSTODY_ACK carry their chunk ranges as `json.dumps(ranges)`, and a datagram
  whose type byte is not one of the five codes is handed to `json.loads` whole. `JsonValue` is
  what `json.loads` builds, `loads` is a recursive-descent reading of RFC 8259 (fuel is the
  input length, so every definition is structural and evaluates), and `dumpsRanges` is
  `json.dumps` on a list of integer pairs, which Python writes as nested arrays with the
  separators `", "`. Main result: `loads_dumpsRanges`, every list of integer pairs reads back.
  Numbers with a fraction or an exponent (Python floats) and `NaN`/`Infinity` are refused here.
-/

namespace Courier

/-- A value `json.loads` can return (floats aside). -/
inductive JsonValue where
  | null
  | bool (b : Bool)
  | int (n : Int)
  | str (s : List Char)
  | arr (xs : List JsonValue)
  | obj (kvs : List (List Char × JsonValue))

namespace Json

/-! ## Scanning -/

/-- JSON whitespace. -/
def isWs (c : Char) : Bool := c = ' ' || c = '\t' || c = '\n' || c = '\r'

def skipWs : List Char → List Char
  | c :: cs => if isWs c then skipWs cs else c :: cs
  | [] => []

/-- `'0' … '9'`. -/
def isDigit (c : Char) : Bool := 48 ≤ c.toNat && c.toNat ≤ 57

/-- The decimal digits at the head of the input, accumulated onto `acc`. -/
def readDigits (acc : Nat) : List Char → Nat × List Char
  | c :: cs => if isDigit c then readDigits (acc * 10 + (c.toNat - 48)) cs else (acc, c :: cs)
  | [] => (acc, [])

/-- `0 | [1-9][0-9]*`. -/
def parseNat : List Char → Option (Nat × List Char)
  | c :: cs =>
    if c = '0' then some (0, cs)
    else if isDigit c then some (readDigits (c.toNat - 48) cs)
    else none
  | [] => none

/-- A JSON number that Python reads as an `int`: `-?(0|[1-9][0-9]*)` not followed by a
    fraction or an exponent. -/
def parseInt (s : List Char) : Option (Int × List Char) :=
  let r : Option (Int × List Char) :=
    if s.head? = some '-' then (parseNat s.tail).map fun (n, rest) => (-(n : Int), rest)
    else (parseNat s).map fun (n, rest) => ((n : Int), rest)
  r.bind fun (n, rest) =>
    if rest.head? = some '.' ∨ rest.head? = some 'e' ∨ rest.head? = some 'E' then none
    else some (n, rest)

/-- The value of a hexadecimal digit. -/
def hexVal (c : Char) : Option Nat :=
  if '0' ≤ c ∧ c ≤ '9' then some (c.toNat - 48)
  else if 'a' ≤ c ∧ c ≤ 'f' then some (c.toNat - 87)
  else if 'A' ≤ c ∧ c ≤ 'F' then some (c.toNat - 55)
  else none

/-- The character of an escape `\e` other than `\u`. -/
def simpleEscape (e : Char) : Option Char :=
  if e = '"' then some '"' else if e = '\\' then some '\\' else if e = '/' then some '/'
  else if e = 'b' then some (Char.ofNat 8) else if e = 'f' then some (Char.ofNat 12)
  else if e = 'n' then some '\n' else if e = 'r' then some '\r' else if e = 't' then some '\t'
  else none

/-- One character of a string body and the input after it: a plain character, or an escape. -/
def stringChar? : List Char → Option (Char × List Char)
  | '\\' :: 'u' :: h1 :: h2 :: h3 :: h4 :: rest =>
    match hexVal h1, hexVal h2, hexVal h3, hexVal h4 with
    | some a, some b, some c, some d => some (Char.ofNat (((a * 16 + b) * 16 + c) * 16 + d), rest)
    | _, _, _, _ => none
  | '\\' :: e :: rest => (simpleEscape e).map (·, rest)
  | c :: rest => if c.toNat < 0x20 then none else some (c, rest)
  | [] => none

/-- The body of a string after its opening quote, up to and past the closing quote. -/
def parseString : Nat → List Char → Option (List Char × List Char)
  | _, '"' :: rest => some ([], rest)
  | 0, _ => none
  | fuel + 1, s =>
    match stringChar? s with
    | some (c, rest) => (parseString fuel rest).map fun (str, r) => (c :: str, r)
    | none => none

/-! ## Values -/

/-- The input after the literal `lit`, when it starts with it. -/
def afterLiteral (lit s : List Char) : Option (List Char) :=
  if lit.isPrefixOf s then some (s.drop lit.length) else none

mutual

/-- One JSON value at the head of the input (after whitespace), and the input after it. The
    first character decides the kind: a number, `[`, `{`, `"`, or a literal. -/
def parseValue : Nat → List Char → Option (JsonValue × List Char)
  | 0, _ => none
  | fuel + 1, s =>
    match skipWs s with
    | [] => none
    | c :: rest =>
      if isDigit c ∨ c = '-' then (parseInt (c :: rest)).map fun (n, r) => (.int n, r)
      else if c = '[' then
        if (skipWs rest).head? = some ']' then some (.arr [], (skipWs rest).tail)
        else parseItems fuel [] rest
      else if c = '{' then
        if (skipWs rest).head? = some '}' then some (.obj [], (skipWs rest).tail)
        else parseMembers fuel [] rest
      else if c = '"' then (parseString rest.length rest).map fun (str, r) => (.str str, r)
      else if c = 'n' then (afterLiteral "ull".data rest).map (.null, ·)
      else if c = 't' then (afterLiteral "rue".data rest).map (.bool true, ·)
      else if c = 'f' then (afterLiteral "alse".data rest).map (.bool false, ·)
      else none

/-- The items of an array after `[`, onto `acc` (reversed), through the closing `]`. -/
def parseItems : Nat → List JsonValue → List Char → Option (JsonValue × List Char)
  | 0, _, _ => none
  | fuel + 1, acc, s =>
    match parseValue fuel s with
    | some (v, r) =>
      match skipWs r with
      | ',' :: r' => parseItems fuel (v :: acc) r'
      | ']' :: r' => some (.arr (v :: acc).reverse, r')
      | _ => none
    | none => none

/-- The members of an object after `{`, onto `acc` (reversed), through the closing `}`. -/
def parseMembers : Nat → List (List Char × JsonValue) → List Char →
    Option (JsonValue × List Char)
  | 0, _, _ => none
  | fuel + 1, acc, s =>
    match skipWs s with
    | '"' :: r =>
      match parseString r.length r with
      | some (key, r1) =>
        match skipWs r1 with
        | ':' :: r2 =>
          match parseValue fuel r2 with
          | some (v, r3) =>
            match skipWs r3 with
            | ',' :: r4 => parseMembers fuel ((key, v) :: acc) r4
            | '}' :: r4 => some (.obj ((key, v) :: acc).reverse, r4)
            | _ => none
          | none => none
        | _ => none
      | none => none
    | _ => none

end

/-- `json.loads(s)`: one value, then nothing but whitespace. -/
def loads (s : List Char) : Option JsonValue :=
  match parseValue (s.length + 1) s with
  | some (v, rest) => if skipWs rest = [] then some v else none
  | none => none

/-! ## Printing ranges -/

/-- `str(n)` for a non-negative `int`: decimal digits, most significant first. -/
def natRepr (n : Nat) : List Char :=
  if n = 0 then ['0'] else (Nat.digits 10 n).reverse.map Nat.digitChar

/-- `str(n)` for an `int`. -/
def intRepr (n : Int) : List Char :=
  if n < 0 then '-' :: natRepr n.natAbs else natRepr n.toNat

/-- The item separator of `json.dumps`, `", "`. -/
def itemSep : List Char := [',', ' ']

/-- `json.dumps([lo, hi])` for one range. -/
def dumpsPair (p : Int × Int) : List Char :=
  '[' :: (intRepr p.1 ++ itemSep ++ intRepr p.2 ++ [']'])

/-- `json.dumps(ranges)` for a list of integer pairs (Python writes each tuple as an array). -/
def dumpsRanges (rs : List (Int × Int)) : List Char :=
  '[' :: (itemSep.intercalate (rs.map dumpsPair) ++ [']'])

/-- The value `json.loads` gives for one printed range. -/
def pairValue (p : Int × Int) : JsonValue := .arr [.int p.1, .int p.2]

/-! ## Round trip of range lists -/

theorem digitChar_spec : ∀ d, d < 10 →
    isDigit (Nat.digitChar d) = true ∧ (Nat.digitChar d).toNat - 48 = d ∧
      (Nat.digitChar d = '0' ↔ d = 0) := by decide

theorem isWs_of_isDigit {c : Char} (h : isDigit c = true ∨ c = '-') : isWs c = false := by
  cases hw : isWs c
  · rfl
  · simp only [isWs, Bool.or_eq_true, decide_eq_true_eq] at hw
    rcases hw with ((rfl | rfl) | rfl) | rfl <;> revert h <;> decide

theorem skipWs_cons_of_not_ws {c : Char} (cs : List Char) (h : isWs c = false) :
    skipWs (c :: cs) = c :: cs := by
  simp [skipWs, h]

theorem skipWs_space (cs : List Char) : skipWs (' ' :: cs) = skipWs cs := rfl

theorem readDigits_append {acc : Nat} {L : List Nat} (hL : ∀ d ∈ L, d < 10) {rest : List Char}
    (hr : ∀ c ∈ rest.head?, isDigit c = false) :
    readDigits acc (L.map Nat.digitChar ++ rest) = (L.foldl (fun a d => a * 10 + d) acc, rest) := by
  induction L generalizing acc with
  | nil =>
    cases rest with
    | nil => rfl
    | cons c cs => simp [readDigits, hr c rfl]
  | cons d L ih =>
    obtain ⟨h1, h2, -⟩ := digitChar_spec d (hL d (List.mem_cons_self _ _))
    simp only [List.map_cons, List.cons_append, readDigits, h1, if_true, h2, List.foldl_cons]
    exact ih fun e he => hL e (List.mem_cons_of_mem _ he)

theorem foldl_digits_reverse (n : Nat) :
    (Nat.digits 10 n).reverse.foldl (fun a d => a * 10 + d) 0 = n := by
  rw [List.foldl_reverse]
  conv_rhs => rw [← Nat.ofDigits_digits 10 n]
  rw [Nat.ofDigits_eq_foldr]
  congr 1
  funext x y
  push_cast
  ring

/-- The printed digits of a positive number: a nonzero leading digit, then the others. -/
theorem digits_reverse_cons {n : Nat} (hn : n ≠ 0) :
    ∃ dl T, (Nat.digits 10 n).reverse = dl :: T ∧ dl ≠ 0 ∧ dl < 10 ∧ ∀ d ∈ T, d < 10 := by
  have hne : Nat.digits 10 n ≠ [] := Nat.digits_ne_nil_iff_ne_zero.mpr hn
  have hlt : ∀ d ∈ (Nat.digits 10 n).reverse, d < 10 := fun d hd =>
    Nat.digits_lt_base (by decide) (List.mem_reverse.mp hd)
  cases hrev : (Nat.digits 10 n).reverse with
  | nil => exact absurd (List.reverse_eq_nil_iff.mp hrev) hne
  | cons dl T =>
    have h := List.getLast?_eq_getLast (Nat.digits 10 n) hne
    rw [← List.head?_reverse, hrev] at h
    rw [hrev] at hlt
    exact ⟨dl, T, rfl, (Option.some.inj h) ▸ Nat.getLast_digit_ne_zero 10 hn,
      hlt dl (List.mem_cons_self _ _), fun d hd => hlt d (List.mem_cons_of_mem _ hd)⟩

theorem natRepr_cons (n : Nat) : ∃ c cs, natRepr n = c :: cs ∧ isDigit c = true := by
  unfold natRepr
  split
  · exact ⟨'0', [], rfl, rfl⟩
  · obtain ⟨dl, T, hrev, -, hdl, -⟩ := digits_reverse_cons ‹_›
    exact ⟨_, _, by rw [hrev, List.map_cons], (digitChar_spec dl hdl).1⟩

theorem parseNat_natRepr (n : Nat) {rest : List Char} (hr : ∀ c ∈ rest.head?, isDigit c = false) :
    parseNat (natRepr n ++ rest) = some (n, rest) := by
  unfold natRepr
  split
  · subst n; rfl
  · obtain ⟨dl, T, hrev, hdl0, hdl, hT⟩ := digits_reverse_cons ‹_›
    obtain ⟨h1, h2, h3⟩ := digitChar_spec dl hdl
    have hfold := foldl_digits_reverse n
    rw [hrev] at hfold ⊢
    simp only [List.map_cons, List.cons_append, parseNat, h1, h3, hdl0, if_false, if_true, h2]
    rw [readDigits_append hT hr]
    simpa using hfold

theorem intRepr_cons (n : Int) : ∃ c cs, intRepr n = c :: cs ∧ (isDigit c = true ∨ c = '-') := by
  unfold intRepr
  split
  · exact ⟨'-', _, rfl, Or.inr rfl⟩
  · obtain ⟨c, cs, h, hc⟩ := natRepr_cons n.toNat
    exact ⟨c, cs, h, Or.inl hc⟩

/-- What may follow a printed number: anything but a digit, `.`, `e` or `E`. -/
def EndsNumber (rest : List Char) : Prop :=
  ∀ c ∈ rest.head?, isDigit c = false ∧ c ≠ '.' ∧ c ≠ 'e' ∧ c ≠ 'E'

theorem parseInt_intRepr (n : Int) {rest : List Char} (hr : EndsNumber rest) :
    parseInt (intRepr n ++ rest) = some (n, rest) := by
  have hend : ¬(rest.head? = some '.' ∨ rest.head? = some 'e' ∨ rest.head? = some 'E') := by
    cases rest with
    | nil => simp
    | cons c cs => simpa using (hr c rfl).2
  have hd : ∀ c ∈ rest.head?, isDigit c = false := fun c hc => (hr c hc).1
  unfold parseInt intRepr
  split
  · rename_i hneg
    simp only [List.cons_append, List.head?_cons, if_true, List.tail_cons, parseNat_natRepr _ hd,
      Option.map_some', Option.some_bind, hend, if_false]
    rw [Int.ofNat_natAbs_of_nonpos (by omega), Int.neg_neg]
  · rename_i hpos
    obtain ⟨c, cs, h, hc⟩ := natRepr_cons n.toNat
    have hne : (natRepr n.toNat ++ rest).head? ≠ some '-' := by
      rw [h]; intro he; cases he; revert hc; decide
    simp only [hne, if_false, parseNat_natRepr _ hd, Option.map_some', Option.some_bind, hend]
    rw [Int.toNat_of_nonneg (by omega)]

theorem parseValue_intRepr (f : Nat) (n : Int) {rest : List Char} (hr : EndsNumber rest) :
    parseValue (f + 1) (intRepr n ++ rest) = some (.int n, rest) := by
  obtain ⟨c, cs, h, hc⟩ := intRepr_cons n
  have hp := parseInt_intRepr n hr
  rw [h, List.cons_append] at hp ⊢
  rw [parseValue.eq_2, skipWs_cons_of_not_ws _ (isWs_of_isDigit hc)]
  simp only [if_pos (show isDigit c = true ∨ c = '-' by simpa using hc), hp]
  rfl

theorem parseValue_space (f : Nat) (s : List Char) :
    parseValue (f + 1) (' ' :: s) = parseValue (f + 1) s := by
  rw [parseValue.eq_2, parseValue.eq_2, skipWs_space]

theorem parseValue_bracket (f : Nat) (rest : List Char) (h : (skipWs rest).head? ≠ some ']') :
    parseValue (f + 1) ('[' :: rest) = parseItems f [] rest := by
  rw [parseValue.eq_2, skipWs_cons_of_not_ws _ (show isWs '[' = false from rfl)]
  simp only [if_neg (show ¬(isDigit '[' = true ∨ '[' = '-') by decide), if_true, if_neg h]

theorem parseItems_comma {f : Nat} {acc : List JsonValue} {s r r' : List Char} {v : JsonValue}
    (hv : parseValue f s = some (v, r)) (hr : skipWs r = ',' :: r') :
    parseItems (f + 1) acc s = parseItems f (v :: acc) r' := by
  rw [parseItems.eq_2, hv]; simp only [hr]

theorem parseItems_close {f : Nat} {acc : List JsonValue} {s r r' : List Char} {v : JsonValue}
    (hv : parseValue f s = some (v, r)) (hr : skipWs r = ']' :: r') :
    parseItems (f + 1) acc s = some (.arr (v :: acc).reverse, r') := by
  rw [parseItems.eq_2, hv]; simp only [hr]

/-- The input after a printed integer never starts with `]`: it starts with a digit or `-`. -/
theorem skipWs_intRepr_head (n : Int) (rest : List Char) :
    (skipWs (intRepr n ++ rest)).head? ≠ some ']' := by
  obtain ⟨c, cs, h, hc⟩ := intRepr_cons n
  rw [h, List.cons_append, skipWs_cons_of_not_ws _ (isWs_of_isDigit hc)]
  intro he; cases he; revert hc; decide

theorem parseValue_dumpsPair (f : Nat) (p : Int × Int) (rest : List Char) :
    parseValue (f + 4) (dumpsPair p ++ rest) = some (pairValue p, rest) := by
  have hcomma : EndsNumber (',' :: ' ' :: (intRepr p.2 ++ ']' :: rest)) := by
    intro c hc; cases hc; decide
  have hclose : EndsNumber (']' :: rest) := by
    intro c hc; cases hc; decide
  have h2 : parseValue (f + 1) (' ' :: (intRepr p.2 ++ ']' :: rest)) =
      some (.int p.2, ']' :: rest) := by
    rw [parseValue_space, parseValue_intRepr _ _ hclose]
  simp only [dumpsPair, List.cons_append, List.append_assoc, List.nil_append,
    show itemSep = [',', ' '] from rfl]
  rw [parseValue_bracket _ _ (skipWs_intRepr_head _ _),
    parseItems_comma (parseValue_intRepr _ _ hcomma) rfl,
    parseItems_close h2 (skipWs_cons_of_not_ws rest rfl)]
  rfl

theorem intercalate_cons_cons (sep l₁ l₂ : List Char) (ls : List (List Char)) :
    sep.intercalate (l₁ :: l₂ :: ls) = l₁ ++ sep ++ sep.intercalate (l₂ :: ls) := by
  simp [List.intercalate, List.intersperse]

theorem parseItems_dumps (p : Int × Int) (ps : List (Int × Int)) (acc : List JsonValue)
    (f : Nat) (hf : ps.length ≤ f) (rest : List Char) :
    parseItems (f + 5) acc (itemSep.intercalate ((p :: ps).map dumpsPair) ++ ']' :: rest) =
      some (.arr (acc.reverse ++ (p :: ps).map pairValue), rest) := by
  induction ps generalizing p acc f with
  | nil =>
    rw [show itemSep.intercalate ([p].map dumpsPair) = dumpsPair p by
      simp [List.intercalate, List.intersperse],
      parseItems_close (parseValue_dumpsPair _ _ _) (skipWs_cons_of_not_ws rest rfl)]
    simp
  | cons q qs ih =>
    obtain ⟨g, rfl⟩ : ∃ g, f = g + 1 := ⟨f - 1, by simp at hf; omega⟩
    have hspace : parseItems (g + 5) (pairValue p :: acc)
        (' ' :: (itemSep.intercalate ((q :: qs).map dumpsPair) ++ ']' :: rest)) =
        some (.arr ((pairValue p :: acc).reverse ++ (q :: qs).map pairValue), rest) := by
      rw [show g + 5 = g + 4 + 1 from rfl, parseItems.eq_2, parseValue_space]
      rw [← parseItems.eq_2]
      exact ih q _ g (by simpa using hf)
    rw [List.map_cons, List.map_cons, intercalate_cons_cons, List.append_assoc, List.append_assoc,
      show itemSep ++ (itemSep.intercalate (dumpsPair q :: qs.map dumpsPair) ++ ']' :: rest) =
        ',' :: ' ' :: (itemSep.intercalate ((q :: qs).map dumpsPair) ++ ']' :: rest) from rfl,
      show g + 1 + 5 = g + 5 + 1 from rfl,
      parseItems_comma (parseValue_dumpsPair _ _ _) (skipWs_cons_of_not_ws _ rfl), hspace]
    simp

theorem length_intercalate_ge (sep : List Char) (ls : List (List Char)) :
    (ls.map List.length).sum ≤ (sep.intercalate ls).length := by
  induction ls with
  | nil => simp
  | cons l ls ih =>
    cases ls with
    | nil => simp [List.intercalate, List.intersperse]
    | cons l' ls' =>
      rw [intercalate_cons_cons, List.length_append, List.length_append]
      simp only [List.map_cons, List.sum_cons] at ih ⊢
      omega

theorem length_dumpsPair (p : Int × Int) : 6 ≤ (dumpsPair p).length := by
  obtain ⟨_, _, h1, -⟩ := intRepr_cons p.1
  obtain ⟨_, _, h2, -⟩ := intRepr_cons p.2
  simp [dumpsPair, h1, h2, itemSep]
  omega

theorem sum_length_dumpsPair (rs : List (Int × Int)) :
    6 * rs.length ≤ ((rs.map dumpsPair).map List.length).sum := by
  induction rs with
  | nil => simp
  | cons p ps ih =>
    rw [List.map_cons, List.map_cons, List.sum_cons, List.length_cons]
    have := length_dumpsPair p
    omega

theorem length_dumpsRanges (rs : List (Int × Int)) :
    6 * rs.length + 2 ≤ (dumpsRanges rs).length := by
  have h := length_intercalate_ge itemSep (rs.map dumpsPair)
  have hsum := sum_length_dumpsPair rs
  rw [dumpsRanges, List.length_cons, List.length_append]
  simp only [List.length_singleton]
  omega

/-- `json.loads(json.dumps(ranges))` gives every range back, as an array of two integers. -/
theorem loads_dumpsRanges (rs : List (Int × Int)) :
    loads (dumpsRanges rs) = some (.arr (rs.map pairValue)) := by
  cases rs with
  | nil => rfl
  | cons p ps =>
    have hlen := length_dumpsRanges (p :: ps)
    obtain ⟨f, hf, hps⟩ : ∃ f, (dumpsRanges (p :: ps)).length + 1 = f + 5 + 1 ∧ ps.length ≤ f :=
      ⟨(dumpsRanges (p :: ps)).length - 5, by simp at hlen; omega, by simp at hlen; omega⟩
    have hX : (skipWs (itemSep.intercalate ((p :: ps).map dumpsPair) ++ [']'])).head? ≠
        some ']' := by
      cases ps <;> simp [intercalate_cons_cons, List.intercalate, List.intersperse, dumpsPair,
        skipWs_cons_of_not_ws _ (show isWs '[' = false from rfl)]
    unfold loads
    rw [hf, dumpsRanges, parseValue_bracket _ _ hX, parseItems_dumps p ps [] f hps []]
    rfl

/-! ## The printed ranges are ASCII -/

theorem ascii_append {a b : List Char} (ha : AsciiNoNul a) (hb : AsciiNoNul b) :
    AsciiNoNul (a ++ b) := fun c hc => (List.mem_append.mp hc).elim (ha c) (hb c)

theorem ascii_natRepr (n : Nat) : AsciiNoNul (natRepr n) := by
  have hdigit : ∀ d, d < 10 → 0 < (Nat.digitChar d).toNat ∧ (Nat.digitChar d).toNat < 128 := by
    decide
  unfold natRepr
  split
  · decide
  · intro c hc
    obtain ⟨d, hd, rfl⟩ := List.mem_map.mp hc
    exact hdigit d (Nat.digits_lt_base (by norm_num) (List.mem_reverse.mp hd))

theorem ascii_intRepr (n : Int) : AsciiNoNul (intRepr n) := by
  unfold intRepr
  split
  · exact ascii_append (show AsciiNoNul ['-'] by decide) (ascii_natRepr _)
  · exact ascii_natRepr _

theorem ascii_intercalate {sep : List Char} (hsep : AsciiNoNul sep) :
    ∀ {ls : List (List Char)}, (∀ l ∈ ls, AsciiNoNul l) → AsciiNoNul (sep.intercalate ls)
  | [], _ => fun _ h => nomatch h
  | [l], h => by simpa [List.intercalate] using h l (List.mem_singleton_self l)
  | l₁ :: l₂ :: ls, h => by
    rw [intercalate_cons_cons]
    exact ascii_append (ascii_append (h l₁ (List.mem_cons_self _ _)) hsep)
      (ascii_intercalate hsep fun l hl => h l (List.mem_cons_of_mem _ hl))

theorem ascii_dumpsRanges (rs : List (Int × Int)) : AsciiNoNul (dumpsRanges rs) := by
  have hpair : ∀ p, AsciiNoNul (dumpsPair p) := fun p =>
    ascii_append (show AsciiNoNul ['['] by decide) (ascii_append (ascii_append (ascii_append
      (ascii_intRepr _) (show AsciiNoNul itemSep by decide)) (ascii_intRepr _)) (by decide))
  refine ascii_append (show AsciiNoNul ['['] by decide) (ascii_append ?_ (by decide))
  exact ascii_intercalate (by decide) fun l hl => by
    obtain ⟨p, -, rfl⟩ := List.mem_map.mp hl
    exact hpair p

/-- Python iteration over a loaded value (`for r in v`, `tuple(v)`): the items of an array, the
    one-character strings of a string, the keys of an object (a repeated key once, where it
    first stood); any other value raises `TypeError`. -/
def iterJson : JsonValue → Option (List JsonValue)
  | .arr xs => some xs
  | .str s => some (s.map fun c => .str [c])
  | .obj kvs => some ((kvs.map Prod.fst).eraseDups.map .str)
  | _ => none

/-- The tuple `(lo, hi)` that `tuple(r)` rebuilds from one printed range. -/
def rangeTuple (p : Int × Int) : List JsonValue := [.int p.1, .int p.2]

theorem iterJson_pairs (rs : List (Int × Int)) :
    (rs.map pairValue).mapM iterJson = some (rs.map rangeTuple) := by
  induction rs with
  | nil => rfl
  | cons p ps ih => rw [List.map_cons, List.mapM_cons, ih]; rfl

end Json

end Courier
