import Mathlib.Data.List.Nodup

/-
  Courier: the Python `dict` that every engine keeps its in-memory state in.

  A `Dict` is its list of entries in insertion order with distinct keys; the distinctness is a
  field, so a dictionary with a repeated key cannot be built. `insert` is `d[k] = v` (an existing
  key keeps its place, a new one goes last), `erase` is `d.pop(k, None)` and `del d[k]`, and
  iteration (`for k, v in d.items()`) is a walk over `entries`. The lookup lemmas
  (`get?_insert`, `get?_erase`, `get?_mapVal`) are all later proofs need.
-/

namespace Courier

/-- A Python dictionary: entries in insertion order, no key twice. -/
structure Dict (κ : Type) (ν : Type) where
  entries : List (κ × ν)
  nodup : (entries.map Prod.fst).Nodup

namespace Dict

variable {κ ν : Type} [DecidableEq κ]

/-- `{}`. -/
def empty : Dict κ ν := ⟨[], List.nodup_nil⟩

instance : EmptyCollection (Dict κ ν) := ⟨empty⟩

/-- The first value stored under `k` in a list of entries. -/
def lookup (k : κ) : List (κ × ν) → Option ν
  | [] => none
  | (k', v) :: es => if k' = k then some v else lookup k es

/-- `d.get(k)`. -/
def get? (d : Dict κ ν) (k : κ) : Option ν := lookup k d.entries

/-- `d.keys()`. -/
def keys (d : Dict κ ν) : List κ := d.entries.map Prod.fst

/-- `k in d`. -/
def contains (d : Dict κ ν) (k : κ) : Bool := (d.get? k).isSome

omit [DecidableEq κ] in
private theorem keys_map_snd (es : List (κ × ν)) (f : κ × ν → ν) :
    (es.map fun p => (p.1, f p)).map Prod.fst = es.map Prod.fst := by
  simp [Function.comp_def]

/-- The same keys in the same order, each value rewritten by `f`. -/
def mapVal (d : Dict κ ν) (f : κ → ν → ν) : Dict κ ν :=
  ⟨d.entries.map fun p => (p.1, f p.1 p.2), by rw [keys_map_snd]; exact d.nodup⟩

/-- `d[k] = v`: a present key is updated in place, a new one is appended. -/
def insert (d : Dict κ ν) (k : κ) (v : ν) : Dict κ ν :=
  if h : k ∈ d.keys then d.mapVal fun k' v' => if k' = k then v else v'
  else
    ⟨d.entries ++ [(k, v)], by
      rw [List.map_append, List.nodup_append]
      exact ⟨d.nodup, List.nodup_singleton _, by simpa [keys] using h⟩⟩

/-- `d.pop(k, None)` and `del d[k]`. -/
def erase (d : Dict κ ν) (k : κ) : Dict κ ν :=
  ⟨d.entries.filter (fun p => p.1 ≠ k), (List.filter_sublist _).map _ |>.nodup d.nodup⟩

/-- `{k: v for k, v in d.items() if keep(k, v)}`. -/
def filter (d : Dict κ ν) (keep : κ → ν → Bool) : Dict κ ν :=
  ⟨d.entries.filter (fun p => keep p.1 p.2), (List.filter_sublist _).map _ |>.nodup d.nodup⟩

@[simp] theorem get?_empty (k : κ) : (∅ : Dict κ ν).get? k = none := rfl

theorem lookup_eq_none {k : κ} {es : List (κ × ν)} :
    lookup k es = none ↔ k ∉ es.map Prod.fst := by
  induction es with
  | nil => simp [lookup]
  | cons e es ih =>
    obtain ⟨k', v⟩ := e
    by_cases h : k' = k
    · simp [lookup, h]
    · simp only [lookup, h, if_false, ih, List.map_cons, List.mem_cons, not_or]
      exact ⟨fun h' => ⟨Ne.symm h, h'⟩, And.right⟩

theorem lookup_map (k : κ) (f : κ → ν → ν) (es : List (κ × ν)) :
    lookup k (es.map fun p => (p.1, f p.1 p.2)) = (lookup k es).map (f k) := by
  induction es with
  | nil => rfl
  | cons e es ih =>
    obtain ⟨k', v⟩ := e
    by_cases h : k' = k
    · subst h; simp [lookup]
    · simp [lookup, h, ih]

theorem lookup_append_single (k k' : κ) (v : ν) (es : List (κ × ν)) :
    lookup k' (es ++ [(k, v)]) = (lookup k' es).or (if k = k' then some v else none) := by
  induction es with
  | nil => simp [lookup]
  | cons e es ih =>
    obtain ⟨k'', v'⟩ := e
    by_cases h : k'' = k' <;> simp [lookup, h, ih]

theorem lookup_filter (k : κ) (keep : κ → ν → Bool) (es : List (κ × ν))
    (hnd : (es.map Prod.fst).Nodup) :
    lookup k (es.filter fun p => keep p.1 p.2) = (lookup k es).filter (keep k) := by
  induction es with
  | nil => rfl
  | cons e es ih =>
    obtain ⟨k', v⟩ := e
    simp only [List.map_cons, List.nodup_cons] at hnd
    by_cases h : k' = k
    · subst h
      have hnone : lookup k' (es.filter fun p => keep p.1 p.2) = none :=
        lookup_eq_none.mpr fun hm => hnd.1 (by
          obtain ⟨p, hp, rfl⟩ := List.mem_map.mp hm
          exact List.mem_map.mpr ⟨p, (List.mem_filter.mp hp).1, rfl⟩)
      by_cases hk : keep k' v <;> simp [lookup, List.filter_cons, hk, Option.filter, hnone]
    · by_cases hk : keep k' v <;> simp [lookup, List.filter_cons, h, hk, ih hnd.2]

theorem get?_eq_none {d : Dict κ ν} {k : κ} : d.get? k = none ↔ k ∉ d.keys :=
  lookup_eq_none

theorem mem_keys {d : Dict κ ν} {k : κ} : k ∈ d.keys ↔ (d.get? k).isSome := by
  rw [← not_iff_not, Option.not_isSome_iff_eq_none, get?_eq_none]

@[simp] theorem get?_mapVal (d : Dict κ ν) (f : κ → ν → ν) (k : κ) :
    (d.mapVal f).get? k = (d.get? k).map (f k) :=
  lookup_map k f d.entries

@[simp] theorem get?_filter (d : Dict κ ν) (keep : κ → ν → Bool) (k : κ) :
    (d.filter keep).get? k = (d.get? k).filter (keep k) :=
  lookup_filter k keep d.entries d.nodup

@[simp] theorem get?_insert (d : Dict κ ν) (k k' : κ) (v : ν) :
    (d.insert k v).get? k' = if k' = k then some v else d.get? k' := by
  unfold insert
  split
  · rename_i hk
    rw [get?_mapVal]
    by_cases h : k' = k
    · subst h
      obtain ⟨v', hv'⟩ := Option.isSome_iff_exists.mp (mem_keys.mp hk)
      simp [hv']
    · simp [h]
  · show lookup k' (d.entries ++ [(k, v)]) = _
    rw [lookup_append_single]
    by_cases h : k' = k
    · subst h
      rw [show lookup k' d.entries = none from get?_eq_none.mpr ‹_›]
      simp
    · simp [h, Ne.symm h, get?]

@[simp] theorem get?_erase (d : Dict κ ν) (k k' : κ) :
    (d.erase k).get? k' = if k' = k then none else d.get? k' := by
  have := lookup_filter k' (fun k'' _ => decide (k'' ≠ k)) d.entries d.nodup
  simp only [decide_eq_true_eq] at this
  unfold erase get?
  rw [this]
  by_cases h : k' = k <;> cases lookup k' d.entries <;> simp [h, Option.filter]

/-- A key with a value keeps one through any `d[k'] = v`. -/
theorem isSome_get?_insert_of_isSome {d : Dict κ ν} {k k' : κ} {v : ν} (h : (d.get? k).isSome) :
    ((d.insert k' v).get? k).isSome := by
  rw [get?_insert]; split <;> simp_all

theorem mem_entries {d : Dict κ ν} {k : κ} {v : ν} :
    (k, v) ∈ d.entries ↔ d.get? k = some v := by
  unfold get?
  obtain ⟨es, hnd⟩ := d
  dsimp only
  induction es with
  | nil => simp [lookup]
  | cons e es ih =>
    obtain ⟨k', v'⟩ := e
    simp only [List.map_cons, List.nodup_cons, List.mem_cons] at hnd ⊢
    by_cases h : k' = k
    · subst h
      have : (k', v) ∉ es := fun hm => hnd.1 (List.mem_map.mpr ⟨_, hm, rfl⟩)
      simp [lookup, this, eq_comm]
    · have hne : (k, v) ≠ (k', v') := fun he => h (Prod.mk.inj he).1.symm
      simp [lookup, h, hne, ih hnd.2]

end Dict

end Courier
