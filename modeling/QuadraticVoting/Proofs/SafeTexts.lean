import Mathlib.Data.List.TakeWhile
import QuadraticVoting.Log.Sanitize

/-!
# What is left of a text

`sanitize` is a projection onto the texts without dangerous characters: what it leaves has none,
and of what has none it leaves everything. It takes code points out and neither adds any nor changes
their order.

Taking out an escape sequence may bring the two halves of another one together. That one stays, but
for its escape character, which is dangerous by itself. So a text can be read from the left without
looking back: what has no escape character is read apart from what comes after it, an escape
sequence is passed over as a whole, and an escape character that begins none goes alone.
-/

namespace QuadraticVoting

/-- Whether a code point may reach a terminal: it is no control character but tab or newline. -/
def CodePoint.IsHarmless (p : CodePoint) : Prop :=
  (p.number < 0x20 → p.number = 0x09 ∨ p.number = 0x0A) ∧ p.number ≠ 0x7F

instance : DecidablePred CodePoint.IsHarmless := fun p =>
  inferInstanceAs (Decidable ((p.number < 0x20 → _) ∧ p.number ≠ 0x7F))

namespace Log

variable {a b ps rest q : List CodePoint} {p : CodePoint}

/-! ### Harmless code points -/

theorem isHarmless_iff : p.IsHarmless ↔ p.is isUnsafe = false := by
  cases p with
  | surrogate i =>
    have h : CodePoint.firstSurrogate ≤ (CodePoint.surrogate i).number := Nat.le_add_right ..
    unfold CodePoint.firstSurrogate at h
    refine iff_of_true ⟨?_, ?_⟩ rfl <;> omega
  | char c =>
    have htab : c = '\t' ↔ c.toNat = 0x09 := Char.toNat_inj.symm
    have hnewline : c = '\n' ↔ c.toNat = 0x0A := Char.toNat_inj.symm
    show (c.toNat < 0x20 → c.toNat = 0x09 ∨ c.toNat = 0x0A) ∧ c.toNat ≠ 0x7F ↔
      isUnsafe c = false
    simp only [isUnsafe, Bool.or_eq_false_iff, Bool.and_eq_false_iff, decide_eq_false_iff_not,
      bne_eq_false_iff_eq, beq_eq_false_iff_ne, htab, hnewline]
    omega

theorem escape_notMem (h : ∀ p ∈ ps, p.IsHarmless) : (escape : CodePoint) ∉ ps := by
  intro hm
  have hsafe := isHarmless_iff.1 (h _ hm)
  rw [show (escape : CodePoint).is isUnsafe = true by decide] at hsafe
  cases hsafe

/-! ### Escape sequences -/

/-- A control sequence, or a command of one character. -/
inductive EscapeSequence : List CodePoint → Prop
  | control {ps is : List CodePoint} {f : CodePoint} (hp : ∀ p ∈ ps, p.is isParameter = true)
      (hi : ∀ p ∈ is, p.is isIntermediate = true) (hf : f.is isFinal = true) :
      EscapeSequence (escape :: '[' :: (ps ++ is ++ [f]))
  | command {c : CodePoint} (hc : c.is isCommand = true) : EscapeSequence [escape, c]

theorem is_isParameter_eq_false (h : p.is isIntermediate = true ∨ p.is isFinal = true) :
    p.is isParameter = false := by
  cases p with
  | surrogate i => rfl
  | char c =>
    simp only [CodePoint.is, isParameter, isIntermediate, isFinal, Bool.and_eq_true,
      decide_eq_true_eq, Bool.and_eq_false_iff, decide_eq_false_iff_not, Char.le_def,
      UInt32.le_iff_toNat_le] at h ⊢
    simp at h ⊢
    omega

theorem is_isIntermediate_eq_false (h : p.is isFinal = true) : p.is isIntermediate = false := by
  cases p with
  | surrogate i => rfl
  | char c =>
    simp only [CodePoint.is, isIntermediate, isFinal, Bool.and_eq_true, decide_eq_true_eq,
      Bool.and_eq_false_iff, decide_eq_false_iff_not, Char.le_def, UInt32.le_iff_toNat_le] at h ⊢
    simp at h ⊢
    omega

theorem afterControl_eq_some_iff : afterControl ps = some rest ↔
    ∃ params is f, (∀ p ∈ params, p.is isParameter = true) ∧
      (∀ p ∈ is, p.is isIntermediate = true) ∧ f.is isFinal = true ∧
      ps = params ++ is ++ f :: rest := by
  constructor
  · intro h
    unfold afterControl at h
    split at h
    · next f tail he =>
      split at h
      · next hf =>
        cases h
        refine ⟨ps.takeWhile (·.is isParameter),
          (ps.dropWhile (·.is isParameter)).takeWhile (·.is isIntermediate), f,
          fun _ => List.mem_takeWhile_imp (p := (CodePoint.is · isParameter)),
          fun _ => List.mem_takeWhile_imp (p := (CodePoint.is · isIntermediate)), hf, ?_⟩
        rw [← he, List.append_assoc, List.takeWhile_append_dropWhile,
          List.takeWhile_append_dropWhile]
      · cases h
    · cases h
  · rintro ⟨params, is, f, hp, hi, hf, rfl⟩
    have hpast : (is ++ f :: rest).dropWhile (·.is isParameter) = is ++ f :: rest := by
      cases is with
      | nil => exact List.dropWhile_cons_of_neg (by simp [is_isParameter_eq_false (.inr hf)])
      | cons i is =>
        have hfirst := is_isParameter_eq_false (.inl (hi i List.mem_cons_self))
        exact List.dropWhile_cons_of_neg (by simp [hfirst])
    unfold afterControl
    rw [List.append_assoc, List.dropWhile_append_of_pos hp, hpast,
      List.dropWhile_append_of_pos hi,
      List.dropWhile_cons_of_neg (by simp [is_isIntermediate_eq_false hf])]
    exact if_pos hf

theorem afterEscape_eq_some_iff :
    afterEscape ps = some rest ↔ ∃ q, EscapeSequence q ∧ .char escape :: ps = q ++ rest := by
  constructor
  · intro h
    cases ps with
    | nil => cases h
    | cons c ps =>
      rw [afterEscape] at h
      split at h
      · next hc =>
        obtain ⟨params, is, f, hp, hi, hf, rfl⟩ := afterControl_eq_some_iff.1 h
        exact ⟨_, .control hp hi hf, by simp [hc]⟩
      · split at h
        · next hc =>
          cases h
          exact ⟨_, .command hc, rfl⟩
        · cases h
  · rintro ⟨q, hq, he⟩
    cases hq with
    | control hp hi hf =>
      rw [List.cons_append, List.cons_append, List.cons_inj_right] at he
      subst he
      rw [afterEscape, if_pos rfl]
      exact afterControl_eq_some_iff.2 ⟨_, _, _, hp, hi, hf, by simp⟩
    | @command c hc =>
      rw [List.cons_append, List.cons_append, List.cons_inj_right] at he
      subst he
      have hne : c ≠ '[' := by
        rintro rfl
        revert hc
        decide
      rw [afterEscape, if_neg hne, if_pos hc]
      rfl

/-! ### Laws of taking out -/

theorem dropEscapes_sequence_append (hq : EscapeSequence q) (b : List CodePoint) :
    dropEscapes (q ++ b) = dropEscapes b := by
  obtain ⟨ps, rfl⟩ : ∃ ps, q = .char escape :: ps := by cases hq <;> exact ⟨_, rfl⟩
  have h : afterEscape (ps ++ b) = some b := afterEscape_eq_some_iff.2 ⟨_, hq, rfl⟩
  rw [List.cons_append, dropEscapes, if_pos rfl]
  split
  · next rest hrest =>
    cases h.symm.trans hrest
    rfl
  · next hnone => cases h.symm.trans hnone

theorem dropEscapes_escape_cons (h : ∀ q, EscapeSequence q → ¬ q <+: .char escape :: ps) :
    dropEscapes (.char escape :: ps) = .char escape :: dropEscapes ps := by
  rw [dropEscapes, if_pos rfl]
  split
  · next rest hrest =>
    obtain ⟨q, hq, he⟩ := afterEscape_eq_some_iff.1 hrest
    exact absurd ⟨rest, he.symm⟩ (h q hq)
  · rfl

theorem dropEscapes_append (ha : (escape : CodePoint) ∉ a) (b : List CodePoint) :
    dropEscapes (a ++ b) = a ++ dropEscapes b := by
  induction a with
  | nil => rfl
  | cons p a ih =>
    rw [List.mem_cons, not_or] at ha
    rw [List.cons_append, dropEscapes_cons_of_ne _ (Ne.symm ha.1), ih ha.2, List.cons_append]

theorem dropEscapes_sublist (ps : List CodePoint) : (dropEscapes ps).Sublist ps := by
  fun_induction dropEscapes ps with
  | case1 => exact .slnil
  | case2 ps rest h ih =>
    obtain ⟨q, -, he⟩ := afterEscape_eq_some_iff.1 h
    rw [he]
    exact ih.trans (List.sublist_append_right q rest)
  | case3 ps h ih | case4 p ps h ih => exact ih.cons_cons _

theorem isHarmless_of_mem_safePoints (h : p ∈ safePoints ps) : p.IsHarmless := by
  have hsafe := (List.mem_filter.1 h).2
  rw [Bool.not_eq_true'] at hsafe
  exact isHarmless_iff.2 hsafe

theorem safePoints_eq_self_iff : safePoints ps = ps ↔ ∀ p ∈ ps, p.IsHarmless := by
  constructor
  · intro h p hp
    exact isHarmless_of_mem_safePoints (h ▸ hp)
  · intro h
    unfold safePoints
    rw [dropEscapes_of_not_mem (escape_notMem h), List.filter_eq_self]
    intro p hp
    rw [isHarmless_iff.1 (h p hp), Bool.not_false]

/-- Every text comes out harmless, as a part of itself in the same order, and stays as it is if and
only if it is harmless already; so nothing is left to take out. A beginning without an escape
character is read apart from the rest. An escape sequence goes as a whole, and an escape character
that begins none goes alone. -/
theorem sanitize_projects :
    (∀ t : Text, (∀ p ∈ (sanitize t).toList, p.IsHarmless) ∧
      (sanitize t).toList.Sublist t.toList ∧
      sanitize (sanitize t) = sanitize t ∧
      (sanitize t = t ↔ ∀ p ∈ t.toList, p.IsHarmless)) ∧
    (∀ a b : Text, (escape : CodePoint) ∉ a.toList → sanitize (a ++ b) = sanitize a ++ sanitize b) ∧
    (∀ (q : List CodePoint) (b : Text), EscapeSequence q → sanitize (⟨q⟩ ++ b) = sanitize b) ∧
    ∀ ps : List CodePoint, (∀ q, EscapeSequence q → ¬ q <+: .char escape :: ps) →
      sanitize ⟨.char escape :: ps⟩ = sanitize ⟨ps⟩ := by
  have hharmless : ∀ t : Text, ∀ p ∈ (sanitize t).toList, p.IsHarmless :=
    fun t p => isHarmless_of_mem_safePoints
  refine ⟨fun t => ⟨hharmless t, ?_, ?_, ?_⟩, fun a b ha => ?_, fun q b hq => ?_, fun ps h => ?_⟩
  · exact List.filter_sublist.trans (dropEscapes_sublist t.toList)
  · exact congrArg Text.ofList (safePoints_eq_self_iff.2 (hharmless t))
  · rw [← safePoints_eq_self_iff]
    exact ⟨congrArg Text.toList, congrArg Text.ofList⟩
  · refine congrArg Text.ofList ?_
    show (dropEscapes (a.toList ++ b.toList)).filter _ = _
    rw [dropEscapes_append ha, List.filter_append, ← dropEscapes_of_not_mem ha]
    rfl
  · refine congrArg Text.ofList ?_
    exact congrArg (List.filter _) (dropEscapes_sequence_append hq b.toList)
  · refine congrArg Text.ofList ?_
    show (dropEscapes (.char escape :: ps)).filter _ = _
    rw [dropEscapes_escape_cons h]
    exact List.filter_cons_of_neg (by decide)

/-- A sequence lies between the two halves of another one. It goes, and then the escape character
of the other one, which comes together only now. -/
theorem sanitize_projects_halves :
    let inner : List CodePoint := [escape, '[', '0', 'm']
    let text : List CodePoint := .char escape :: '[' :: (inner ++ [.char '1', .char 'm'])
    (escape : CodePoint) ∉ ("[" : Text).toList ∧ EscapeSequence inner ∧
      (∀ q, EscapeSequence q → ¬ q <+: text) ∧ sanitize ⟨text⟩ = "[1m" := by
  intro inner text
  obtain ⟨hall, happend, hsequence, halone⟩ := sanitize_projects
  have hopen : (escape : CodePoint) ∉ ("[" : Text).toList := by decide +kernel
  have hinner : EscapeSequence inner :=
    @EscapeSequence.control ['0'] [] 'm' (by decide) (by decide) (by decide)
  have hnone : ∀ q, EscapeSequence q → ¬ q <+: text := by
    rintro q hq ⟨rest, he⟩
    have hsome := afterEscape_eq_some_iff.2 ⟨q, hq, he.symm⟩
    rw [show afterEscape ('[' :: (inner ++ [.char '1', .char 'm'])) = none by decide] at hsome
    cases hsome
  refine ⟨hopen, hinner, hnone, ?_⟩
  calc sanitize ⟨text⟩ = sanitize ("[" ++ (⟨inner⟩ ++ "1m")) := halone _ hnone
    _ = sanitize "[" ++ sanitize (⟨inner⟩ ++ "1m") := happend _ _ hopen
    _ = sanitize "[" ++ sanitize "1m" := by rw [hsequence _ _ hinner]
    _ = "[" ++ "1m" := by
      rw [(hall "[").2.2.2.2 (by decide +kernel), (hall "1m").2.2.2.2 (by decide +kernel)]
    _ = "[1m" := by decide +kernel

end Log

end QuadraticVoting
