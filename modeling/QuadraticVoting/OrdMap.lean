/-!
# Insertion-ordered maps

A finite map that keeps its keys in the order in which they came in. Writing to a key that is
present keeps the key's place; a key that was erased goes to the end when it is written again.

The lemmas say what each operation does to `get?` and to `keys`, which is all that the other
modules use.
-/

namespace QuadraticVoting

structure OrdMap (κ ν : Type) where
  entries : List (κ × ν)
  nodup : (entries.map Prod.fst).Nodup

namespace OrdMap

variable {κ ν : Type}

theorem ext_entries {m n : OrdMap κ ν} (h : m.entries = n.entries) : m = n := by
  cases m; cases n; cases h; rfl

def empty : OrdMap κ ν := ⟨[], List.nodup_nil⟩

instance : Inhabited (OrdMap κ ν) := ⟨empty⟩

instance [DecidableEq κ] [DecidableEq ν] : DecidableEq (OrdMap κ ν) := fun m n =>
  if h : m.entries = n.entries then .isTrue (ext_entries h)
  else .isFalse fun e => h (congrArg entries e)

def keys (m : OrdMap κ ν) : List κ := m.entries.map Prod.fst

def values (m : OrdMap κ ν) : List ν := m.entries.map Prod.snd

def size (m : OrdMap κ ν) : Nat := m.entries.length

def isEmpty (m : OrdMap κ ν) : Bool := m.entries.isEmpty

variable [DecidableEq κ]

def valueAt (k : κ) : List (κ × ν) → Option ν
  | [] => none
  | e :: l => if e.1 = k then some e.2 else valueAt k l

/-- The pairs with the value at `k` replaced and everything else as it was. -/
def replaceAt (k : κ) (v : ν) : List (κ × ν) → List (κ × ν)
  | [] => []
  | e :: l => if e.1 = k then (k, v) :: l else e :: replaceAt k v l

theorem map_fst_replaceAt (k : κ) (v : ν) (l : List (κ × ν)) :
    (replaceAt k v l).map Prod.fst = l.map Prod.fst := by
  induction l with
  | nil => rfl
  | cons e l ih =>
    by_cases h : e.1 = k
    · simp [replaceAt, h]
    · simp [replaceAt, h, ih]

def get? (m : OrdMap κ ν) (k : κ) : Option ν := valueAt k m.entries

def contains (m : OrdMap κ ν) (k : κ) : Bool := (m.get? k).isSome

def insert (m : OrdMap κ ν) (k : κ) (v : ν) : OrdMap κ ν :=
  if h : k ∈ m.keys then
    ⟨replaceAt k v m.entries, map_fst_replaceAt k v m.entries ▸ m.nodup⟩
  else
    ⟨m.entries ++ [(k, v)], by
      rw [List.map_append, List.nodup_append]
      refine ⟨m.nodup, by simp, ?_⟩
      intro a ha b hb
      simp only [List.map_cons, List.map_nil, List.mem_singleton] at hb
      exact fun e => h (by rw [← hb, ← e]; exact ha)⟩

def erase (m : OrdMap κ ν) (k : κ) : OrdMap κ ν :=
  ⟨m.entries.filter (fun e => e.1 ≠ k), m.nodup.sublist (List.filter_sublist.map _)⟩

/-- The map of a list of pairs: a repeated key keeps its first place and its last value. -/
def ofList (l : List (κ × ν)) : OrdMap κ ν :=
  l.foldl (fun m e => m.insert e.1 e.2) empty

/-! ### Looking up -/

theorem valueAt_eq_none_iff {k : κ} {l : List (κ × ν)} :
    valueAt k l = none ↔ k ∉ l.map Prod.fst := by
  induction l with
  | nil => simp [valueAt]
  | cons e l ih =>
    by_cases h : e.1 = k
    · simp [valueAt, h]
    · rw [valueAt, if_neg h, ih, List.map_cons, List.mem_cons, not_or]
      exact ⟨fun hl => ⟨Ne.symm h, hl⟩, fun hl => hl.2⟩

theorem valueAt_append (k : κ) (l₁ l₂ : List (κ × ν)) :
    valueAt k (l₁ ++ l₂) = (valueAt k l₁).or (valueAt k l₂) := by
  induction l₁ with
  | nil => rfl
  | cons e l ih => by_cases h : e.1 = k <;> simp [valueAt, h, ih]

theorem valueAt_replaceAt_self {k : κ} {v : ν} {l : List (κ × ν)} (h : k ∈ l.map Prod.fst) :
    valueAt k (replaceAt k v l) = some v := by
  induction l with
  | nil => simp at h
  | cons e l ih =>
    by_cases he : e.1 = k
    · simp [replaceAt, valueAt, he]
    · rw [List.map_cons, List.mem_cons] at h
      simp [replaceAt, valueAt, he, ih (h.resolve_left (Ne.symm he))]

theorem valueAt_replaceAt_of_ne {k j : κ} {v : ν} {l : List (κ × ν)} (h : j ≠ k) :
    valueAt j (replaceAt k v l) = valueAt j l := by
  induction l with
  | nil => rfl
  | cons e l ih =>
    by_cases he : e.1 = k
    · simp [replaceAt, valueAt, he, Ne.symm h]
    · simp [replaceAt, valueAt, he, ih]

theorem valueAt_filter_of_ne {k j : κ} {l : List (κ × ν)} (h : j ≠ k) :
    valueAt j (l.filter (fun e => e.1 ≠ k)) = valueAt j l := by
  induction l with
  | nil => rfl
  | cons e l ih =>
    by_cases he : e.1 = k
    · rw [List.filter_cons_of_neg (by simp [he]), ih, valueAt, if_neg (by rw [he]; exact Ne.symm h)]
    · rw [List.filter_cons_of_pos (by simp [he]), valueAt, valueAt, ih]

@[simp] theorem get?_empty (k : κ) : (empty : OrdMap κ ν).get? k = none := rfl

theorem get?_eq_none_iff {m : OrdMap κ ν} {k : κ} : m.get? k = none ↔ k ∉ m.keys :=
  valueAt_eq_none_iff

theorem contains_iff {m : OrdMap κ ν} {k : κ} : m.contains k = true ↔ k ∈ m.keys := by
  rw [contains, Option.isSome_iff_ne_none, ne_eq, get?_eq_none_iff, Decidable.not_not]

@[simp] theorem get?_insert_self (m : OrdMap κ ν) (k : κ) (v : ν) :
    (m.insert k v).get? k = some v := by
  unfold insert get?
  split
  · next h => exact valueAt_replaceAt_self h
  · next h => rw [valueAt_append, valueAt_eq_none_iff.2 h]; simp [valueAt]

theorem get?_insert_of_ne (m : OrdMap κ ν) {k j : κ} (v : ν) (h : j ≠ k) :
    (m.insert k v).get? j = m.get? j := by
  unfold insert get?
  split
  · exact valueAt_replaceAt_of_ne h
  · rw [valueAt_append]; simp [valueAt, Ne.symm h]

theorem get?_insert (m : OrdMap κ ν) (k j : κ) (v : ν) :
    (m.insert k v).get? j = if j = k then some v else m.get? j := by
  by_cases h : j = k
  · simp [h]
  · rw [if_neg h, get?_insert_of_ne m v h]

@[simp] theorem get?_erase_self (m : OrdMap κ ν) (k : κ) : (m.erase k).get? k = none := by
  rw [get?_eq_none_iff]
  simp [keys, erase]

theorem get?_erase_of_ne (m : OrdMap κ ν) {k j : κ} (h : j ≠ k) :
    (m.erase k).get? j = m.get? j := valueAt_filter_of_ne h

theorem get?_erase (m : OrdMap κ ν) (k j : κ) :
    (m.erase k).get? j = if j = k then none else m.get? j := by
  by_cases h : j = k
  · simp [h]
  · rw [if_neg h, get?_erase_of_ne m h]

/-! ### Order -/

theorem keys_insert_of_mem (m : OrdMap κ ν) {k : κ} (v : ν) (h : k ∈ m.keys) :
    (m.insert k v).keys = m.keys := by
  rw [insert, dif_pos h]
  exact map_fst_replaceAt k v m.entries

end OrdMap

end QuadraticVoting
