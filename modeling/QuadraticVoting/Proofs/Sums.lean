import Mathlib
import QuadraticVoting.OrdMap

/-!
# Sums over maps

`OrdMap.sumOf m f` adds up a quantity over the values of a map. Writing a key changes the sum by
the new value less the one that was there (`sumOf_insert`), erasing it by the latter
(`sumOf_erase`). A list whose shares per key are within a map of amounts is within its sum
(`sum_le_sumOf`), and so is a map that is nowhere above it (`sumOf_le_sumOf`).
-/

namespace QuadraticVoting

namespace OrdMap

variable {κ ν : Type}

/-- The sum of a quantity over the values of a map. -/
def sumOf (m : OrdMap κ ν) (f : ν → Int) : Int := (m.values.map f).sum

theorem sumOf_eq (m : OrdMap κ ν) (f : ν → Int) :
    m.sumOf f = (m.entries.map fun e => f e.2).sum := by
  simp only [sumOf, values, List.map_map]
  rfl

@[simp] theorem sumOf_empty (f : ν → Int) : (empty : OrdMap κ ν).sumOf f = 0 := rfl

theorem sumOf_nonneg {m : OrdMap κ ν} {f : ν → Int} (h : ∀ v ∈ m.values, 0 ≤ f v) :
    0 ≤ m.sumOf f := by
  refine List.sum_nonneg fun x hx => ?_
  obtain ⟨v, hv, rfl⟩ := List.mem_map.1 hx
  exact h v hv

variable [DecidableEq κ]

/-! ### Writing and erasing -/

theorem sum_replaceAt (f : ν → Int) (v : ν) {k : κ} {l : List (κ × ν)}
    (h : k ∈ l.map Prod.fst) :
    ((replaceAt k v l).map fun e => f e.2).sum =
      (l.map fun e => f e.2).sum - ((valueAt k l).map f).getD 0 + f v := by
  induction l with
  | nil => simp at h
  | cons e l ih =>
    by_cases he : e.1 = k
    · simp only [replaceAt, valueAt, he, if_true, List.map_cons, List.sum_cons, Option.map_some,
        Option.getD_some]
      omega
    · rw [List.map_cons, List.mem_cons] at h
      have := ih (h.resolve_left (Ne.symm he))
      simp only [replaceAt, valueAt, he, if_false, List.map_cons, List.sum_cons, this]
      omega

theorem sum_filter_ne (f : ν → Int) (k : κ) {l : List (κ × ν)} (h : (l.map Prod.fst).Nodup) :
    ((l.filter fun e => e.1 ≠ k).map fun e => f e.2).sum =
      (l.map fun e => f e.2).sum - ((valueAt k l).map f).getD 0 := by
  induction l with
  | nil => rfl
  | cons e l ih =>
    rw [List.map_cons, List.nodup_cons] at h
    have ih := ih h.2
    by_cases he : e.1 = k
    · have hk : valueAt k l = none := valueAt_eq_none_iff.2 (he ▸ h.1)
      rw [hk] at ih
      rw [List.filter_cons_of_neg (by simp [he]), ih]
      simp [valueAt, he]
    · rw [List.filter_cons_of_pos (by simp [he]), List.map_cons, List.sum_cons, ih]
      simp only [valueAt, he, if_false, List.map_cons, List.sum_cons]
      omega

theorem sumOf_insert (m : OrdMap κ ν) (f : ν → Int) (k : κ) (v : ν) :
    (m.insert k v).sumOf f = m.sumOf f - ((m.get? k).map f).getD 0 + f v := by
  simp only [sumOf_eq]
  unfold insert get?
  split
  · next h => exact sum_replaceAt f v h
  · next h =>
    rw [valueAt_eq_none_iff.2 h]
    simp

theorem sumOf_erase (m : OrdMap κ ν) (f : ν → Int) (k : κ) :
    (m.erase k).sumOf f = m.sumOf f - ((m.get? k).map f).getD 0 := by
  simp only [sumOf_eq]
  exact sum_filter_ne f k m.nodup

/-! ### Values and bounds -/

theorem mem_of_valueAt {k : κ} {v : ν} {l : List (κ × ν)} (h : valueAt k l = some v) :
    (k, v) ∈ l := by
  induction l with
  | nil => cases h
  | cons e l ih =>
    by_cases he : e.1 = k
    · rw [valueAt, if_pos he] at h
      cases h
      subst he
      exact List.mem_cons_self
    · rw [valueAt, if_neg he] at h
      exact List.mem_cons_of_mem _ (ih h)

theorem valueAt_of_mem {k : κ} {v : ν} {l : List (κ × ν)} (hn : (l.map Prod.fst).Nodup)
    (h : (k, v) ∈ l) : valueAt k l = some v := by
  induction l with
  | nil => cases h
  | cons e l ih =>
    rw [List.map_cons, List.nodup_cons] at hn
    rcases List.mem_cons.1 h with rfl | h
    · simp [valueAt]
    · have hne : e.1 ≠ k := fun he => hn.1 (he ▸ List.mem_map_of_mem h)
      rw [valueAt, if_neg hne]
      exact ih hn.2 h

theorem mem_values_iff {m : OrdMap κ ν} {v : ν} : v ∈ m.values ↔ ∃ k, m.get? k = some v := by
  constructor
  · intro h
    obtain ⟨e, he, rfl⟩ := List.mem_map.1 h
    exact ⟨e.1, valueAt_of_mem m.nodup he⟩
  · rintro ⟨k, h⟩
    exact List.mem_map.2 ⟨(k, v), mem_of_valueAt h, rfl⟩

/-- A map whose keys can be read off its values is one of its values. -/
theorem map_values_eq_entries {m : OrdMap κ ν} (key : ν → κ)
    (h : ∀ {k v}, m.get? k = some v → key v = k) :
    (m.values.map fun v => (key v, v)) = m.entries := by
  unfold values
  rw [List.map_map]
  refine (List.map_congr_left fun e he => ?_).trans (List.map_id _)
  exact Prod.ext (h (valueAt_of_mem m.nodup he)) rfl

/-- No value stands twice in such a map. -/
theorem nodup_values {m : OrdMap κ ν} (key : ν → κ)
    (h : ∀ {k v}, m.get? k = some v → key v = k) : m.values.Nodup := by
  refine .of_map (fun v => (key v, v)) ?_
  rw [map_values_eq_entries key h]
  exact .of_map Prod.fst m.nodup

theorem le_sumOf {m : OrdMap κ ν} {f : ν → Int} (hf : ∀ v ∈ m.values, 0 ≤ f v) {k : κ} {v : ν}
    (h : m.get? k = some v) : f v ≤ m.sumOf f := by
  refine List.single_le_sum (fun x hx => ?_) _ (List.mem_map_of_mem (mem_values_iff.2 ⟨k, h⟩))
  obtain ⟨w, hw, rfl⟩ := List.mem_map.1 hx
  exact hf w hw

/-- Taking out the elements of one key takes nothing out of the share of another. -/
theorem filter_share {α : Type} (key : α → κ) (l : List α) (j k : κ) :
    (l.filter fun a => ¬ key a = j).filter (fun a => key a = k) =
      if j = k then [] else l.filter fun a => key a = k := by
  split
  · next h =>
    subst h
    rw [List.filter_eq_nil_iff]
    intro a ha
    simpa using (List.mem_filter.1 ha).2
  · next h =>
    rw [List.filter_filter]
    refine List.filter_congr fun a _ => ?_
    by_cases ha : key a = k
    · simp [ha, Ne.symm h]
    · simp [ha]

/-- An element is within the share of its key. -/
theorem le_share {α : Type} {f : α → Int} (key : α → κ) {l : List α} (hf : ∀ a ∈ l, 0 ≤ f a)
    {a : α} (ha : a ∈ l) : f a ≤ ((l.filter fun b => key b = key a).map f).sum := by
  refine List.single_le_sum (fun x hx => ?_) _ (List.mem_map_of_mem (by simp [ha]))
  obtain ⟨b, hb, rfl⟩ := List.mem_map.1 hx
  exact hf b (List.mem_filter.1 hb).1

/-- When the part of a list that belongs to each key is within the amount at that key, the whole
list is within the sum of the amounts. -/
theorem sum_le_sumOf {α : Type} {f : α → Int} {key : α → κ} {l : List α} {m : OrdMap κ Int}
    (hf : ∀ a ∈ l, 0 ≤ f a)
    (h : ∀ k, ((l.filter fun a => key a = k).map f).sum ≤ (m.get? k).getD 0) :
    (l.map f).sum ≤ m.sumOf id := by
  obtain ⟨entries, nodup⟩ := m
  rw [sumOf_eq]
  unfold get? at h
  dsimp only [id] at h ⊢
  induction entries generalizing l with
  | nil =>
    -- An element that counts would be within the share of its key, which is nothing.
    refine le_of_eq_of_le ?_ (le_refl 0)
    refine List.sum_eq_zero fun x hx => ?_
    obtain ⟨a, ha, rfl⟩ := List.mem_map.1 hx
    have hshare := h (key a)
    rw [valueAt, Option.getD_none] at hshare
    have hle := le_share key hf ha
    have hnonneg := hf a ha
    omega
  | cons e rest ih =>
    rw [List.map_cons, List.nodup_cons] at nodup
    have hsplit := List.sum_map_filter_add_sum_map_filter_not (fun a => key a = e.1) f l
    have he := h e.1
    simp only [valueAt, if_true, Option.getD_some] at he
    have hrest := ih (l := l.filter fun a => ¬ key a = e.1)
      (fun a ha => hf a (List.mem_filter.1 ha).1) nodup.2 (fun k => ?_)
    · rw [List.map_cons, List.sum_cons]
      omega
    · rw [filter_share]
      split
      · next hk =>
        rw [← hk, valueAt_eq_none_iff.2 nodup.1]
        exact Int.le_refl 0
      · next hk =>
        have hshare := h k
        rw [valueAt, if_neg hk] at hshare
        exact hshare

/-- A map of amounts that is nowhere above another one does not add up to more. -/
theorem sumOf_le_sumOf {m n : OrdMap κ Int} (hm : ∀ v ∈ m.values, 0 ≤ v)
    (h : ∀ k, (m.get? k).getD 0 ≤ (n.get? k).getD 0) : m.sumOf id ≤ n.sumOf id := by
  have hshare : ∀ k, ((m.entries.filter fun e => e.1 = k).map fun e => id e.2).sum ≤
      (n.get? k).getD 0 := by
    intro k
    have hsplit := List.sum_map_filter_add_sum_map_filter_not (fun e : κ × Int => e.1 = k)
      (fun e => id e.2) m.entries
    have hrest := sum_filter_ne id k m.nodup
    have hk : (valueAt k m.entries).getD 0 ≤ (n.get? k).getD 0 := h k
    rw [Option.map_id] at hrest
    simp only [id, ne_eq, decide_not] at hsplit hrest ⊢
    omega
  rw [sumOf_eq]
  exact sum_le_sumOf (fun e he => hm _ (List.mem_map_of_mem he)) hshare

end OrdMap

end QuadraticVoting
