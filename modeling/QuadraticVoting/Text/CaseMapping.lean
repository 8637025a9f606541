/-!
# Mappings from one case to another

Full mappings of Unicode, which take a character to one character or to a few: plain characters
(those below U+0080) by a rule of their own, some by a list, most in runs. All other characters
are left as they are.
-/

namespace QuadraticVoting.Text

/-- A run of characters, `step` apart, with the image of the first; the others follow it. -/
structure CaseRun where
  first : Nat
  last : Nat
  step : Nat
  image : Nat

def CaseRun.image? (r : CaseRun) (n : Nat) : Option Nat :=
  if r.first ≤ n && n ≤ r.last && (n - r.first) % r.step == 0 then some (r.image + (n - r.first))
  else none

theorem CaseRun.of_image?_eq_some {r : CaseRun} {n image : Nat} (h : r.image? n = some image) :
    r.first ≤ n ∧ n ≤ r.last ∧ image = r.image + (n - r.first) := by
  unfold image? at h
  split at h
  · next hn =>
    simp only [Bool.and_eq_true, decide_eq_true_eq] at hn
    cases h
    omega
  · cases h

structure CaseMapping where
  plain : Char → Char
  /-- The characters whose image is longer than one character. -/
  long : List (Nat × List Nat)
  runs : List CaseRun

def CaseMapping.images (m : CaseMapping) (c : Char) : List Char :=
  let n := c.toNat
  if n < 0x80 then [m.plain c]
  else
    match m.long.find? (·.1 == n) with
    | some (_, images) => images.map Char.ofNat
    | none =>
      match m.runs.findSome? (·.image? n) with
      | some image => [Char.ofNat image]
      | none => [c]

/-- A character is plain, or in the list, or in a run, or left as it is. -/
theorem CaseMapping.images_cases (m : CaseMapping) (c : Char) :
    (c.toNat < 0x80 ∧ m.images c = [m.plain c]) ∨
    (∃ e ∈ m.long, m.images c = e.2.map Char.ofNat) ∨
    (∃ r ∈ m.runs, ∃ image, r.image? c.toNat = some image ∧ m.images c = [Char.ofNat image]) ∨
    (0x80 ≤ c.toNat ∧ m.images c = [c]) := by
  unfold images
  by_cases hc : c.toNat < 0x80
  · exact .inl ⟨hc, if_pos hc⟩
  simp only [if_neg hc]
  right
  split
  · next n images he => exact .inl ⟨_, List.mem_of_find?_eq_some he, rfl⟩
  right
  split
  · next image hi =>
    obtain ⟨r, hr, hri⟩ := List.exists_of_findSome?_eq_some hi
    exact .inl ⟨r, hr, image, hri, rfl⟩
  · exact .inr ⟨Nat.not_lt.1 hc, rfl⟩

end QuadraticVoting.Text
