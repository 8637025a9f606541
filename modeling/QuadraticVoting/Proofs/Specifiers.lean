import Mathlib.Data.Bool.AllAny
import Mathlib.Data.List.Infix
import Mathlib.Data.List.TakeWhile
import QuadraticVoting.Log.LineFormat

/-!
# Conversions by their look

The test of a line format looks for two things in a text: what looks like the end of a conversion, a
name in brackets and a letter (`IsSpecifier`), and a conversion with a name as it is usually written
(`IsConversion`). Both are said here as what they consist of, and the searches are shown to find
them (`hasSpecifier_iff`, `allMarked_iff`, `hasConversion_iff`).
-/

namespace QuadraticVoting.Log.LineFormat

variable {cs s : List Char} {ps qs : List CodePoint} {c : Char}

/-! ### Specifiers -/

def IsName (name : List Char) : Prop :=
  name.head?.any isNameStart = true ∧ ∀ c ∈ name, isNameChar c = true

/-- A name in brackets and a letter. -/
def IsSpecifier (s : List Char) : Prop :=
  ∃ name letter, IsName name ∧ isLetter letter = true ∧ s = '(' :: name ++ [')', letter]

theorem isNameChar_of_isNameStart (h : isNameStart c = true) : isNameChar c = true := by
  rw [isNameChar, h, Bool.true_or]

theorem isNameChar_close : isNameChar ')' = false := by decide

theorem endsSpecifier_iff : endsSpecifier cs = true ↔
    ∃ name letter, (∀ c ∈ name, isNameChar c = true) ∧ isLetter letter = true ∧
      name ++ [')', letter] <+: cs := by
  induction cs with
  | nil =>
    refine iff_of_false (by decide) ?_
    rintro ⟨name, letter, -, -, h⟩
    cases name <;> cases List.prefix_nil.1 h
  | cons c cs ih =>
    rw [endsSpecifier]
    split
    · next hc =>
      rw [ih]
      constructor
      · rintro ⟨name, letter, hname, hl, h⟩
        exact ⟨c :: name, letter, List.forall_mem_cons.2 ⟨hc, hname⟩, hl, List.cons_prefix_cons.2
          ⟨rfl, h⟩⟩
      · rintro ⟨name, letter, hname, hl, h⟩
        cases name with
        | nil =>
          cases (List.cons_prefix_cons.1 h).1
          cases isNameChar_close.symm.trans hc
        | cons d name =>
          exact ⟨name, letter, (List.forall_mem_cons.1 hname).2, hl, (List.cons_prefix_cons.1 h).2⟩
    · next hc =>
      rw [Bool.and_eq_true, beq_iff_eq]
      constructor
      · rintro ⟨rfl, h⟩
        cases cs with
        | nil => cases h
        | cons letter cs => exact ⟨[], letter, List.forall_mem_nil _, h, cs, rfl⟩
      · rintro ⟨name, letter, hname, hl, h⟩
        cases name with
        | nil =>
          obtain ⟨rfl, hrest⟩ := List.cons_prefix_cons.1 h
          obtain ⟨rest, rfl⟩ := hrest
          exact ⟨rfl, hl⟩
        | cons d name =>
          cases (List.cons_prefix_cons.1 h).1
          exact absurd (hname _ List.mem_cons_self) hc

theorem startsWithSpecifier_iff :
    startsWithSpecifier cs = true ↔ ∃ s, IsSpecifier s ∧ s <+: cs := by
  constructor
  · intro h
    unfold startsWithSpecifier at h
    split at h
    · next c cs =>
      obtain ⟨hc, h⟩ := Bool.and_eq_true_iff.1 h
      obtain ⟨name, letter, hname, hl, h⟩ := endsSpecifier_iff.1 h
      refine ⟨_, ⟨c :: name, letter, ⟨hc, ?_⟩, hl, rfl⟩, ?_⟩
      · exact List.forall_mem_cons.2 ⟨isNameChar_of_isNameStart hc, hname⟩
      · exact List.cons_prefix_cons.2 ⟨rfl, List.cons_prefix_cons.2 ⟨rfl, h⟩⟩
    · cases h
  · rintro ⟨_, ⟨name, letter, ⟨hstart, hname⟩, hl, rfl⟩, rest, rfl⟩
    cases name with
    | nil => cases hstart
    | cons c name =>
      refine Bool.and_eq_true_iff.2 ⟨hstart, endsSpecifier_iff.2 ?_⟩
      exact ⟨name, letter, (List.forall_mem_cons.1 hname).2, hl, rest, by simp⟩

theorem hasSpecifier_iff : hasSpecifier cs = true ↔ ∃ s, IsSpecifier s ∧ s <:+: cs := by
  induction cs with
  | nil =>
    refine iff_of_false (by decide) ?_
    rintro ⟨_, ⟨name, letter, -, -, rfl⟩, h⟩
    cases List.infix_nil.1 h
  | cons c cs ih =>
    rw [hasSpecifier, Bool.or_eq_true, startsWithSpecifier_iff, ih]
    simp only [List.infix_cons_iff, and_or_left, exists_or]

/-! ### Specifiers in a template -/

/-- The text begins with a specifier. -/
def Begins (ps : List CodePoint) : Prop := ∃ s, IsSpecifier s ∧ s.map .char <+: ps

theorem IsSpecifier.notMem (h : IsSpecifier s) (hbracket : c ≠ '(' ∧ c ≠ ')')
    (hc : isNameChar c = false ∧ isLetter c = false) : c ∉ s := by
  obtain ⟨name, letter, hname, hl, rfl⟩ := h
  simp only [List.mem_append, List.mem_cons, List.not_mem_nil, or_false, not_or]
  refine ⟨⟨hbracket.1, fun hm => ?_⟩, hbracket.2, ?_⟩
  · cases hc.1.symm.trans (hname.2 c hm)
  · rintro rfl
    cases hc.2.symm.trans hl

theorem prefix_masked_iff (hs : '\ufffd' ∉ s) :
    s <+: Text.masked ⟨ps⟩ ↔ s.map .char <+: ps := by
  induction s generalizing ps with
  | nil => simp
  | cons c s ih =>
    obtain ⟨hc, hs⟩ := not_or.1 fun h => hs (List.mem_cons.2 h)
    cases ps with
    | nil => simp [Text.masked]
    | cons p ps =>
      show c :: s <+: p.char?.getD '\ufffd' :: Text.masked ⟨ps⟩ ↔ _
      rw [List.map_cons, List.cons_prefix_cons, List.cons_prefix_cons, ih hs]
      refine and_congr_left fun _ => ?_
      cases p with
      | char d => exact ⟨congrArg _, CodePoint.char.inj⟩
      | surrogate i =>
        refine iff_of_false (Ne.symm hc) fun h => ?_
        cases h

theorem begins_iff : Begins ps ↔ startsWithSpecifier (Text.masked ⟨ps⟩) = true := by
  rw [startsWithSpecifier_iff]
  exact exists_congr fun s => and_congr_right fun hs =>
    (prefix_masked_iff (hs.notMem (by decide) (by decide))).symm

theorem Begins.eq_cons (h : Begins ps) : ∃ rest, ps = .char '(' :: rest := by
  obtain ⟨_, ⟨name, letter, -, -, rfl⟩, rest, rfl⟩ := h
  exact ⟨_, rfl⟩

/-- Every specifier follows a percent sign. -/
def Marked (ps : List CodePoint) : Prop := ∀ qs, qs <:+ ps → Begins qs → .char '%' :: qs <:+ ps

theorem allMarked_iff_suffix (marked : Bool) : allMarked marked (Text.masked ⟨ps⟩) = true ↔
    ∀ qs, qs <:+ ps → Begins qs → qs = ps ∧ marked = true ∨ .char '%' :: qs <:+ ps := by
  induction ps generalizing marked with
  | nil =>
    refine iff_of_true rfl fun qs hq hb => ?_
    obtain ⟨rest, rfl⟩ := hb.eq_cons
    cases List.suffix_nil.1 hq
  | cons p ps ih =>
    have hpercent : (p.char?.getD '\ufffd' == '%') = true ↔ p = .char '%' := by
      cases p with
      | char c => simp [CodePoint.char?]
      | surrogate i => simp [CodePoint.char?]
    show allMarked marked (p.char?.getD '\ufffd' :: Text.masked ⟨ps⟩) = true ↔ _
    rw [allMarked, Bool.and_eq_true, ih, Bool.or_eq_true, Bool.not_eq_true']
    have hbegin : startsWithSpecifier (p.char?.getD '\ufffd' :: Text.masked ⟨ps⟩) = false ↔
        ¬ Begins (p :: ps) := by
      rw [begins_iff, Bool.not_eq_true]
      rfl
    rw [hbegin]
    simp only [List.suffix_cons_iff, hpercent]
    constructor
    · rintro ⟨hfirst, hrest⟩ qs (rfl | hq) hb
      · exact .inl ⟨rfl, hfirst.resolve_right (not_not_intro hb)⟩
      · rcases hrest qs hq hb with ⟨rfl, rfl⟩ | h
        · exact .inr (.inl rfl)
        · exact .inr (.inr h)
    · refine fun h => ⟨?_, fun qs hq hb => ?_⟩
      · by_cases hb : Begins (p :: ps)
        · rcases h _ (.inl rfl) hb with ⟨-, hm⟩ | he | hlong
          · exact .inl hm
          · exact absurd (List.cons.inj he).2 (List.cons_ne_self p ps)
          · exact absurd hlong.length_le (by simp only [List.length_cons]; omega)
        · exact .inr hb
      · rcases h qs (.inr hq) hb with ⟨rfl, -⟩ | he | h
        · exact absurd hq.length_le (by simp only [List.length_cons]; omega)
        · exact .inl ⟨(List.cons.inj he).2, (List.cons.inj he).1.symm⟩
        · exact .inr h

theorem allMarked_iff : allMarked false (Text.masked ⟨ps⟩) = true ↔ Marked ps := by
  rw [allMarked_iff_suffix]
  simp only [Bool.false_eq_true, and_false, false_or]
  rfl

theorem Marked.of_suffix (h : Marked ps) (hs : qs <:+ ps) (hb : ¬ Begins qs) : Marked qs := by
  intro rs hr hbr
  have hshort : rs.length < qs.length := by
    refine Nat.lt_of_le_of_ne hr.length_le fun he => hb ?_
    rwa [← hr.eq_of_length he]
  exact List.suffix_of_suffix_length_le (h rs (hr.trans hs) hbr) hs hshort

theorem Marked.of_append (qs : List CodePoint) {p : CodePoint} (h : Marked (qs ++ p :: ps))
    (hp : p ≠ .char '%') : Marked ps := by
  have hs : ps <:+ qs ++ p :: ps := ⟨qs ++ [p], by simp⟩
  refine h.of_suffix hs fun hb => hp ?_
  have hlast : p :: ps <:+ qs ++ p :: ps := ⟨qs, rfl⟩
  have heq := (List.suffix_of_suffix_length_le (h ps hs hb) hlast (by simp)).eq_of_length (by simp)
  exact (List.cons.inj heq).1.symm

/-! ### Conversions with a name -/

/-- A star, or digits if any. -/
def IsSize (s : List Char) : Prop := s = ['*'] ∨ ∀ c ∈ s, Text.isDigit c = true

/-- A point and a star or digits, or nothing. -/
def IsPrecision (s : List Char) : Prop :=
  s = [] ∨ s = ['.', '*'] ∨ ∃ c cs, s = '.' :: c :: cs ∧ ∀ d ∈ c :: cs, Text.isDigit d = true

/-- A conversion with a name, as it is usually written. -/
def IsConversion (s : List Char) : Prop :=
  ∃ name flags size precision c, name ≠ [] ∧ (∀ d ∈ name, Text.isWord d = true) ∧
    (∀ d ∈ flags, Template.isFlag d = true) ∧ IsSize size ∧ IsPrecision precision ∧
    isConversionEnd c = true ∧
    s = '%' :: '(' :: (name ++ ')' :: (flags ++ size ++ precision ++ [c]))

theorem of_isConversionEnd (h : isConversionEnd c = true) :
    Text.isDigit c = false ∧ Template.isFlag c = false ∧ c ≠ '*' ∧ c ≠ '.' := by
  simp only [isConversionEnd, Bool.or_eq_true, List.contains_iff_mem, beq_iff_eq] at h
  rcases h with ((h | h) | h) | h
  · have hall : ∀ d ∈ "diouxefgcrsaDIOUXEFGCRSA%".toList, Text.isDigit d = false ∧
        Template.isFlag d = false ∧ d ≠ '*' ∧ d ≠ '.' := List.all_iff_forall_prop.1 (by decide)
    exact hall c h
  all_goals
    have hc := Char.ofNat_toNat c
    rw [h] at hc
    subst hc
    decide

theorem exists_append_dropSize (cs : List Char) :
    ∃ size, IsSize size ∧ cs = size ++ dropSize cs := by
  unfold dropSize
  split
  · exact ⟨['*'], .inl rfl, rfl⟩
  · exact ⟨cs.takeWhile Text.isDigit, .inr fun _ => List.mem_takeWhile_imp,
      List.takeWhile_append_dropWhile.symm⟩

theorem exists_append_dropPrecision (cs : List Char) :
    ∃ precision, IsPrecision precision ∧ cs = precision ++ dropPrecision cs := by
  unfold dropPrecision
  split
  · exact ⟨['.', '*'], .inr (.inl rfl), rfl⟩
  · next c cs hstar =>
    split
    · next hc =>
      refine ⟨'.' :: c :: cs.takeWhile Text.isDigit, .inr (.inr ⟨c, _, rfl, ?_⟩), ?_⟩
      · exact List.forall_mem_cons.2 ⟨hc, fun _ => List.mem_takeWhile_imp⟩
      · simp
    · exact ⟨[], .inl rfl, rfl⟩
  · exact ⟨[], .inl rfl, rfl⟩

/-- What may come after the size of a conversion. -/
def Follows (cs : List Char) : Prop :=
  ∃ c rest, cs = c :: rest ∧ Text.isDigit c = false ∧ Template.isFlag c = false ∧ c ≠ '*'

theorem IsPrecision.follows {precision rest : List Char} (hp : IsPrecision precision)
    (hc : isConversionEnd c = true) : Follows (precision ++ c :: rest) := by
  rcases hp with rfl | rfl | ⟨d, ds, rfl, -⟩
  · obtain ⟨hdigit, hflag, hstar, -⟩ := of_isConversionEnd hc
    exact ⟨c, rest, rfl, hdigit, hflag, hstar⟩
  · exact ⟨'.', _, rfl, by decide, by decide, by decide⟩
  · exact ⟨'.', _, rfl, by decide, by decide, by decide⟩

theorem dropSize_digits {digits : List Char} (hd : ∀ c ∈ digits, Text.isDigit c = true)
    (hf : Follows cs) : dropSize (digits ++ cs) = cs := by
  obtain ⟨c, rest, rfl, hdigit, hflag, hstar⟩ := hf
  have hdrop : (digits ++ c :: rest).dropWhile Text.isDigit = c :: rest := by
    rw [List.dropWhile_append_of_pos hd, List.dropWhile_cons_of_neg (by simp [hdigit])]
  unfold dropSize
  split
  · next ds he =>
    cases digits with
    | nil => exact absurd (List.cons.inj he).1 hstar
    | cons d digits =>
      have hfirst := hd d List.mem_cons_self
      rw [(List.cons.inj he).1] at hfirst
      cases hfirst
  · exact hdrop

/-- The zeros at the beginning of a number are flags as well, which makes no difference. -/
theorem dropSize_dropWhile_digits {digits : List Char} (hd : ∀ c ∈ digits, Text.isDigit c = true)
    (hf : Follows cs) : dropSize ((digits ++ cs).dropWhile Template.isFlag) = cs := by
  induction digits with
  | nil =>
    obtain ⟨c, rest, rfl, hdigit, hflag, hstar⟩ := id hf
    rw [List.nil_append, List.dropWhile_cons_of_neg (by simp [hflag])]
    have hnone : ∀ c ∈ [], Text.isDigit c = true := nofun
    exact dropSize_digits hnone hf
  | cons d digits ih =>
    by_cases h : Template.isFlag d = true
    · rw [List.cons_append, List.dropWhile_cons_of_pos h]
      exact ih (List.forall_mem_cons.1 hd).2
    · rw [List.cons_append, List.dropWhile_cons_of_neg h, ← List.cons_append]
      exact dropSize_digits hd hf

theorem dropPrecision_append {precision rest : List Char} (hp : IsPrecision precision)
    (hc : isConversionEnd c = true) : dropPrecision (precision ++ c :: rest) = c :: rest := by
  obtain ⟨hdigit, -, -, hpoint⟩ := of_isConversionEnd hc
  rcases hp with rfl | rfl | ⟨d, ds, rfl, hd⟩
  · unfold dropPrecision
    split
    · next he => exact absurd (List.cons.inj he).1 hpoint
    · next he => exact absurd (List.cons.inj he).1 hpoint
    · rfl
  · rfl
  · obtain ⟨hfirst, hrest⟩ := List.forall_mem_cons.1 hd
    have hstar : d ≠ '*' := by
      rintro rfl
      cases hfirst
    show dropPrecision ('.' :: d :: (ds ++ c :: rest)) = c :: rest
    unfold dropPrecision
    split
    · next he => exact absurd (List.cons.inj (List.cons.inj he).2).1 hstar
    · next he =>
      cases he
      rw [if_pos hfirst, List.dropWhile_append_of_pos hrest,
        List.dropWhile_cons_of_neg (by simp [hdigit])]
    · next h => exact absurd rfl (h d (ds ++ c :: rest))

theorem dropPrecision_dropSize {flags size precision rest : List Char}
    (hf : ∀ d ∈ flags, Template.isFlag d = true) (hs : IsSize size) (hp : IsPrecision precision)
    (hc : isConversionEnd c = true) :
    dropPrecision (dropSize ((flags ++ (size ++ (precision ++ c :: rest))).dropWhile
      Template.isFlag)) = c :: rest := by
  have hsize : dropSize ((size ++ (precision ++ c :: rest)).dropWhile Template.isFlag) =
      precision ++ c :: rest := by
    rcases hs with rfl | hd
    · rfl
    · exact dropSize_dropWhile_digits hd (hp.follows hc)
  rw [List.dropWhile_append_of_pos hf, hsize, dropPrecision_append hp hc]

theorem startsWithConversion_iff :
    startsWithConversion cs = true ↔ ∃ s, IsConversion s ∧ s <+: cs := by
  constructor
  · intro h
    unfold startsWithConversion at h
    split at h
    · next cs =>
      obtain ⟨hname, h⟩ := Bool.and_eq_true_iff.1 h
      split at h
      · next after hafter =>
        split at h
        · next c rest hend =>
          obtain ⟨size, hs, hsize⟩ := exists_append_dropSize (after.dropWhile Template.isFlag)
          obtain ⟨precision, hp, hprecision⟩ := exists_append_dropPrecision
            (dropSize (after.dropWhile Template.isFlag))
          rw [hend] at hprecision
          have htext : cs = cs.takeWhile Text.isWord ++ ')' :: (after.takeWhile Template.isFlag ++
              (size ++ (precision ++ c :: rest))) := by
            rw [← hprecision, ← hsize, List.takeWhile_append_dropWhile, ← hafter,
              List.takeWhile_append_dropWhile]
          refine ⟨_, ⟨cs.takeWhile Text.isWord, after.takeWhile Template.isFlag, size, precision, c,
            ?_, fun _ => List.mem_takeWhile_imp, fun _ => List.mem_takeWhile_imp, hs, hp, h, rfl⟩,
            rest, ?_⟩
          · simpa using hname
          · conv_rhs => rw [htext]
            simp
        · cases h
      · cases h
    · cases h
  · rintro ⟨_, ⟨name, flags, size, precision, c, hne, hname, hf, hs, hp, hc, rfl⟩, rest, rfl⟩
    have hclose : ¬ Text.isWord ')' = true := by decide
    have htext : '%' :: '(' :: (name ++ ')' :: (flags ++ size ++ precision ++ [c])) ++ rest =
        '%' :: '(' :: (name ++ ')' :: (flags ++ (size ++ (precision ++ c :: rest)))) := by simp
    have htake : ∀ cs, (name ++ ')' :: cs).takeWhile Text.isWord = name := fun cs => by
      rw [List.takeWhile_append_of_pos hname, List.takeWhile_cons_of_neg hclose, List.append_nil]
    have hdrop : ∀ cs, (name ++ ')' :: cs).dropWhile Text.isWord = ')' :: cs := fun cs => by
      rw [List.dropWhile_append_of_pos hname, List.dropWhile_cons_of_neg hclose]
    rw [htext]
    unfold startsWithConversion
    simp only [htake, hdrop, dropPrecision_dropSize hf hs hp hc, hc, Bool.and_true]
    simpa using hne

theorem hasConversion_iff : hasConversion cs = true ↔ ∃ s, IsConversion s ∧ s <:+: cs := by
  induction cs with
  | nil =>
    refine iff_of_false (by decide) ?_
    rintro ⟨_, ⟨name, flags, size, precision, c, -, -, -, -, -, -, rfl⟩, h⟩
    cases List.infix_nil.1 h
  | cons c cs ih =>
    rw [hasConversion, Bool.or_eq_true, startsWithConversion_iff, ih]
    simp only [List.infix_cons_iff, and_or_left, exists_or]

end QuadraticVoting.Log.LineFormat
