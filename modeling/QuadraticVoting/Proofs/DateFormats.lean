import Mathlib.Data.Bool.AllAny
import Mathlib.Data.List.TakeWhile
import QuadraticVoting.Log.DateFormat

/-!
# Which date formats are accepted

A text has one reading as tokens at most, and `tokens?` finds it (`tokens?_eq_some_iff`). So what
the test asks of a format can be said in tokens (`accepts_iff`), and compared with the grammar: a
run of tokens with a directive among them.

The test lets more pass than the grammar. A newline may follow the tokens. And the second percent
sign of an escape counts as the sign of a directive if the separators behind it go on like one
(`LikeDirective`).
-/

namespace QuadraticVoting

theorem Text.eq_ofChars_of_masked {t : Text} {cs : List Char} (h : t.masked = cs)
    (hcs : '\ufffd' ∉ cs) : t = ofChars cs := by
  obtain ⟨ps⟩ := t
  subst h
  induction ps with
  | nil => rfl
  | cons p ps ih =>
    obtain ⟨hp, hps⟩ := not_or.1 fun h => hcs (List.mem_cons.2 h)
    have hrest := congrArg Text.toList (ih hps)
    cases p with
    | char c => exact congrArg Text.ofList (congrArg (CodePoint.char c :: ·) hrest)
    | surrogate i => exact absurd rfl hp

namespace Log.DateFormat

variable {cs rest ending : List Char} {c : Char} {t : Token} {l : List Token}

instance : DecidablePred Token.Valid
  | .percent => inferInstanceAs (Decidable True)
  | .directive m flags letter =>
    decidable_of_iff
      ((m.toList.all isModifier && flags.all isFlag && isDirectiveLetter letter) = true)
      (by simp [Token.Valid, and_assoc])
  | .separator c => inferInstanceAs (Decidable (isSeparator c = true))

/-! ### Classes of characters -/

theorem of_isModifier (h : isModifier c = true) :
    isFlag c = false ∧ isDirectiveLetter c = false ∧ isSeparator c = false ∧ c ≠ '%' := by
  simp only [isModifier, Bool.or_eq_true, beq_iff_eq] at h
  rcases h with rfl | rfl <;> decide

theorem of_isFlag (h : isFlag c = true) :
    isModifier c = false ∧ isDirectiveLetter c = false ∧ c ≠ '%' ∧ c ≠ '\n' := by
  have hall : ∀ d ∈ "-_0^#".toList, isModifier d = false ∧ isDirectiveLetter d = false ∧
      d ≠ '%' ∧ d ≠ '\n' := List.all_iff_forall_prop.1 (by decide)
  exact hall c (List.contains_iff_mem.1 h)

theorem of_isDirectiveLetter (h : isDirectiveLetter c = true) :
    isModifier c = false ∧ isFlag c = false ∧ c ≠ '%' ∧ c ≠ '\n' := by
  have hall : ∀ d ∈ "ABCDFGHIMNPRSTUVWXYZabcdefghjklmnprstuwxyz".toList, isModifier d = false ∧
      isFlag d = false ∧ d ≠ '%' ∧ d ≠ '\n' := List.all_iff_forall_prop.1 (by decide)
  exact hall c (List.contains_iff_mem.1 h)

theorem of_isSeparator (h : isSeparator c = true) :
    isModifier c = false ∧ c ≠ '%' ∧ c ≠ '\n' ∧ (isFlag c = true → c = '-' ∨ c = '0') ∧
      (isDirectiveLetter c = true → c = 'T' ∨ c = 'Z') := by
  have hall : ∀ d ∈ "0123456789 \t:-/.,TZ+".toList, isModifier d = false ∧ d ≠ '%' ∧ d ≠ '\n' ∧
      (isFlag d = true → d = '-' ∨ d = '0') ∧ (isDirectiveLetter d = true → d = 'T' ∨ d = 'Z') :=
    List.all_iff_forall_prop.1 (by decide)
  exact hall c (List.contains_iff_mem.1 h)

/-! ### Tokens of a text -/

theorem modifier_append {m : Option Char} (hm : ∀ c ∈ m, isModifier c = true)
    (hc : isModifier c = false) : modifier (m.toList ++ c :: cs) = (m, c :: cs) := by
  cases m with
  | none => simp [modifier, hc]
  | some d => simp [modifier, hm d rfl]

theorem append_modifier (cs : List Char) : (modifier cs).1.toList ++ (modifier cs).2 = cs := by
  unfold modifier
  split
  · rfl
  · split <;> rfl

theorem isModifier_of_modifier (h : c ∈ (modifier cs).1) : isModifier c = true := by
  unfold modifier at h
  split at h
  · cases h
  · split at h
    · next hc => cases h; exact hc
    · cases h

theorem directive?_eq_some_iff : directive? cs = some (t, rest) ↔
    t.isDirective = true ∧ t.Valid ∧ '%' :: cs = t.chars ++ rest := by
  constructor
  · intro h
    simp only [directive?] at h
    split at h
    · cases h
    · next letter tail he =>
      split at h
      · next hl =>
        cases h
        refine ⟨rfl, ⟨fun _ => isModifier_of_modifier, fun _ => List.mem_takeWhile_imp, hl⟩, ?_⟩
        have hflags := List.takeWhile_append_dropWhile (p := isFlag) (l := (modifier cs).2)
        rw [he] at hflags
        simp only [Token.chars, List.cons_append, List.append_assoc, List.nil_append, hflags,
          append_modifier]
      · cases h
  · rintro ⟨hd, ht, he⟩
    cases t with
    | percent | separator => cases hd
    | directive m flags letter =>
      obtain ⟨hm, hf, hl⟩ := ht
      obtain ⟨hlm, hlf, -, -⟩ := of_isDirectiveLetter hl
      have hcs : cs = m.toList ++ (flags ++ letter :: rest) := by simpa [Token.chars] using he
      have hmod : modifier cs = (m, flags ++ letter :: rest) := by
        rw [hcs]
        cases flags with
        | nil => exact modifier_append hm hlm
        | cons f flags => exact modifier_append hm (of_isFlag (hf f List.mem_cons_self)).1
      have hstop : ¬ isFlag letter = true := by simp [hlf]
      simp only [directive?, hmod, List.dropWhile_append_of_pos hf,
        List.takeWhile_append_of_pos hf, List.dropWhile_cons_of_neg hstop,
        List.takeWhile_cons_of_neg hstop, List.append_nil, if_pos hl]

theorem ne_percent_of_directive? (h : directive? cs = some (t, rest)) :
    ∃ c cs', cs = c :: cs' ∧ c ≠ '%' := by
  obtain ⟨hd, ht, he⟩ := directive?_eq_some_iff.1 h
  cases t with
  | percent | separator => cases hd
  | directive m flags letter =>
    obtain ⟨hm, hf, hl⟩ := ht
    simp only [Token.chars, List.cons_append, List.cons.injEq, true_and] at he
    cases m with
    | some d => exact ⟨d, _, he, (of_isModifier (hm d rfl)).2.2.2⟩
    | none =>
      cases flags with
      | cons f flags => exact ⟨f, _, he, (of_isFlag (hf f List.mem_cons_self)).2.2.1⟩
      | nil => exact ⟨letter, _, he, (of_isDirectiveLetter hl).2.2.1⟩

theorem token?_separator (h : c ≠ '%') (cs : List Char) :
    token? (c :: cs) = if isSeparator c then some (.separator c, cs) else none := by
  unfold token?
  exact if_neg h

theorem token?_percent (h : c ≠ '%') (cs : List Char) :
    token? ('%' :: c :: cs) = directive? (c :: cs) := by
  unfold token?
  dsimp only
  rw [if_pos rfl]
  split
  · next he => exact absurd (List.cons.inj he).1 h
  · rfl

theorem token?_eq_some_iff : token? cs = some (t, rest) ↔ t.Valid ∧ cs = t.chars ++ rest := by
  constructor
  · intro h
    unfold token? at h
    split at h
    · cases h
    · next c cs =>
      split at h
      · next hc =>
        split at h
        · cases h
          exact ⟨trivial, by rw [hc]; rfl⟩
        · obtain ⟨-, ht, he⟩ := directive?_eq_some_iff.1 h
          exact ⟨ht, by rw [hc, he]⟩
      · split at h
        · next hs => cases h; exact ⟨hs, rfl⟩
        · cases h
  · rintro ⟨ht, rfl⟩
    cases t with
    | percent => rfl
    | separator c =>
      exact (token?_separator (of_isSeparator ht).2.1 rest).trans (if_pos ht)
    | directive m flags letter =>
      have hread : directive? (m.toList ++ flags ++ letter :: rest) =
          some (.directive m flags letter, rest) :=
        directive?_eq_some_iff.2 ⟨rfl, ht, by simp [Token.chars]⟩
      obtain ⟨c, cs, hcs, hc⟩ := ne_percent_of_directive? hread
      have htext : (Token.directive m flags letter).chars ++ rest =
          '%' :: (m.toList ++ flags ++ letter :: rest) := by simp [Token.chars]
      rw [hcs] at hread
      rw [htext, hcs, token?_percent hc, hread]

theorem tokens?_eq_some_iff : tokens? cs = some l ↔ (∀ t ∈ l, t.Valid) ∧ cs = chars l := by
  induction l generalizing cs with
  | nil =>
    unfold tokens?
    split
    · next h => simp [h, chars]
    · next h =>
      refine iff_of_false ?_ (fun hl => h hl.2)
      split <;> simp
  | cons t l ih =>
    have hstep : tokens? cs = some (t :: l) ↔
        ∃ rest, token? cs = some (t, rest) ∧ tokens? rest = some l := by
      rw [tokens?.eq_def]
      split
      · next h => simp [h, token?]
      · split
        · next h => simp [h]
        · next t' rest h =>
          simp only [h, Option.map_eq_some_iff, Option.some.injEq, Prod.mk.injEq, List.cons.injEq]
          constructor
          · rintro ⟨l', hl', rfl, rfl⟩
            exact ⟨rest, ⟨rfl, rfl⟩, hl'⟩
          · rintro ⟨_, ⟨rfl, rfl⟩, hl⟩
            exact ⟨l, hl, rfl, rfl⟩
    rw [hstep, List.forall_mem_cons]
    constructor
    · rintro ⟨rest, ht, hl⟩
      obtain ⟨hvalid, rfl⟩ := token?_eq_some_iff.1 ht
      obtain ⟨hrest, rfl⟩ := ih.1 hl
      exact ⟨⟨hvalid, hrest⟩, rfl⟩
    · rintro ⟨⟨hvalid, hrest⟩, rfl⟩
      exact ⟨chars l, token?_eq_some_iff.2 ⟨hvalid, rfl⟩, ih.2 ⟨hrest, rfl⟩⟩

/-! ### The search for a directive -/

/-- Separators that go on like a directive behind its percent sign: dashes and zeros, and then a `T`
or a `Z`. -/
inductive LikeDirective : List Token → Prop
  | letter {c : Char} (hc : c = 'T' ∨ c = 'Z') (l : List Token) : LikeDirective (.separator c :: l)
  | flag {c : Char} {l : List Token} (hc : c = '-' ∨ c = '0') (hl : LikeDirective l) :
      LikeDirective (.separator c :: l)

/-- The second percent sign of an escape is taken for the sign of a directive. -/
def Misread (l : List Token) : Prop := ∃ l₁ l₂, l = l₁ ++ .percent :: l₂ ∧ LikeDirective l₂

theorem misread_cons : Misread (t :: l) ↔ t = .percent ∧ LikeDirective l ∨ Misread l := by
  constructor
  · rintro ⟨l₁, l₂, he, h⟩
    cases l₁ with
    | nil => cases he; exact .inl ⟨rfl, h⟩
    | cons _ l₁ => cases he; exact .inr ⟨l₁, l₂, rfl, h⟩
  · rintro (⟨rfl, h⟩ | ⟨l₁, l₂, rfl, h⟩)
    · exact ⟨[], l, rfl, h⟩
    · exact ⟨t :: l₁, l₂, rfl, h⟩

/-- What the test allows behind the tokens. -/
def IsEnding (ending : List Char) : Prop := ending = [] ∨ ending = ['\n']

theorem chars_cons (t : Token) (l : List Token) : chars (t :: l) = t.chars ++ chars l := rfl

/-- What could belong to a directive, other than the percent sign, is a separator where it stands at
the beginning of a token. -/
theorem eq_separator_cons (hl : ∀ t ∈ l, t.Valid) (hend : IsEnding ending)
    (h : chars l ++ ending = c :: cs)
    (hc : isModifier c = true ∨ isFlag c = true ∨ isDirectiveLetter c = true) :
    ∃ l', l = .separator c :: l' ∧ isSeparator c = true ∧ cs = chars l' ++ ending := by
  have hsign : c ≠ '%' ∧ c ≠ '\n' := by
    rcases hc with hc | hc | hc
    · refine ⟨(of_isModifier hc).2.2.2, ?_⟩
      rintro rfl
      cases hc
    · exact (of_isFlag hc).2.2
    · exact (of_isDirectiveLetter hc).2.2
  cases l with
  | nil =>
    rcases hend with rfl | rfl
    · cases h
    · exact absurd (List.cons.inj h).1.symm hsign.2
  | cons t l =>
    cases t with
    | percent | directive => exact absurd (List.cons.inj h).1.symm hsign.1
    | separator d =>
      obtain ⟨rfl, hrest⟩ := List.cons.inj h
      exact ⟨l, rfl, hl _ List.mem_cons_self, hrest.symm⟩

theorem isSome_directive?_iff (hl : ∀ t ∈ l, t.Valid) (hend : IsEnding ending) :
    (directive? (chars l ++ ending)).isSome = true ↔ LikeDirective l := by
  rw [Option.isSome_iff_exists]
  constructor
  · rintro ⟨⟨t, rest⟩, h⟩
    obtain ⟨hd, ht, he⟩ := directive?_eq_some_iff.1 h
    cases t with
    | percent | separator => cases hd
    | directive m flags letter =>
      obtain ⟨hm, hf, hletter⟩ := ht
      simp only [Token.chars, List.cons_append, List.cons.injEq, true_and, List.append_assoc,
        List.nil_append] at he
      have hnone : m = none := by
        cases m with
        | none => rfl
        | some d =>
          obtain ⟨-, -, hs, -⟩ := eq_separator_cons hl hend he (.inl (hm d rfl))
          cases (of_isModifier (hm d rfl)).2.2.1.symm.trans hs
      subst hnone
      clear h hd hm
      -- The flags are separators one by one, up to the letter, which is one too.
      induction flags generalizing l with
      | nil =>
        obtain ⟨l', rfl, hs, -⟩ := eq_separator_cons hl hend he (.inr (.inr hletter))
        exact .letter ((of_isSeparator hs).2.2.2.2 hletter) l'
      | cons f flags ih =>
        obtain ⟨hfirst, hf⟩ := List.forall_mem_cons.1 hf
        obtain ⟨l', rfl, hs, hrest⟩ := eq_separator_cons hl hend he (.inr (.inl hfirst))
        refine .flag ((of_isSeparator hs).2.2.2.1 hfirst) ?_
        exact ih (List.forall_mem_cons.1 hl).2 hf hrest.symm
  · intro h
    suffices hsplit : ∃ flags letter rest, (∀ f ∈ flags, isFlag f = true) ∧
        isDirectiveLetter letter = true ∧ chars l ++ ending = flags ++ letter :: rest by
      obtain ⟨flags, letter, rest, hf, hletter, he⟩ := hsplit
      refine ⟨(.directive none flags letter, rest), directive?_eq_some_iff.2 ⟨rfl, ?_, ?_⟩⟩
      · exact ⟨nofun, hf, hletter⟩
      · rw [he]
        simp [Token.chars]
    clear hl
    induction h with
    | letter hc l =>
      refine ⟨[], _, chars l ++ ending, nofun, ?_, rfl⟩
      rcases hc with rfl | rfl <;> decide
    | @flag c l hc hl ih =>
      obtain ⟨flags, letter, rest, hf, hletter, he⟩ := ih
      refine ⟨c :: flags, letter, rest, List.forall_mem_cons.2 ⟨?_, hf⟩, hletter, ?_⟩
      · rcases hc with rfl | rfl <;> decide
      · exact congrArg (c :: ·) he

theorem directive?_percent (cs : List Char) : directive? ('%' :: cs) = none := by
  cases h : directive? ('%' :: cs) with
  | none => rfl
  | some x =>
    obtain ⟨t, rest⟩ := x
    obtain ⟨c, cs', he, hc⟩ := ne_percent_of_directive? h
    exact absurd (List.cons.inj he).1.symm hc

theorem hasDirective_iff (hl : ∀ t ∈ l, t.Valid) (hend : IsEnding ending) :
    hasDirective (chars l ++ ending) = true ↔
      (∃ t ∈ l, t.isDirective = true) ∨ Misread l := by
  induction l with
  | nil =>
    refine iff_of_false ?_ ?_
    · rcases hend with rfl | rfl <;> decide
    · rintro (⟨_, hm, -⟩ | ⟨l₁, l₂, he, -⟩)
      · cases hm
      · cases l₁ <;> cases he
  | cons t l ih =>
    obtain ⟨ht, hrest⟩ := List.forall_mem_cons.1 hl
    have ih := ih hrest
    simp only [misread_cons, List.mem_cons, exists_eq_or_imp]
    cases t with
    | percent =>
      have hstep : hasDirective (chars (.percent :: l) ++ ending) =
          ((directive? (chars l ++ ending)).isSome || hasDirective (chars l ++ ending)) := by
        show hasDirective ('%' :: '%' :: (chars l ++ ending)) = _
        simp [hasDirective, directive?_percent]
      have hd : Token.percent.isDirective = false := rfl
      rw [hstep, Bool.or_eq_true, isSome_directive?_iff hrest hend, ih]
      simp only [hd, Bool.false_eq_true, false_or, true_and]
      exact or_left_comm
    | separator c =>
      obtain ⟨-, hpercent, hnewline, -, -⟩ := of_isSeparator ht
      have hstep : hasDirective (chars (.separator c :: l) ++ ending) =
          hasDirective (chars l ++ ending) := by
        show hasDirective (c :: (chars l ++ ending)) = _
        rw [hasDirective, beq_false_of_ne hpercent, bne_iff_ne.2 hnewline, Bool.false_and,
          Bool.false_or, Bool.true_and]
      have hd : (Token.separator c).isDirective = false := rfl
      rw [hstep, ih]
      simp only [hd, Bool.false_eq_true, reduceCtorEq, false_and, false_or]
    | directive m flags letter =>
      refine iff_of_true ?_ (.inl (.inl rfl))
      have hread : directive? (m.toList ++ flags ++ letter :: (chars l ++ ending)) =
          some (.directive m flags letter, chars l ++ ending) :=
        directive?_eq_some_iff.2 ⟨rfl, ht, by simp [Token.chars]⟩
      have htext : chars (.directive m flags letter :: l) ++ ending =
          '%' :: (m.toList ++ flags ++ letter :: (chars l ++ ending)) := by
        simp [chars_cons, Token.chars]
      rw [htext, hasDirective, hread]
      rfl

/-! ### The test -/

theorem of_mem_chars (ht : t.Valid) (hc : c ∈ t.chars) : c ≠ '\n' ∧ c ≠ '\ufffd' := by
  cases t with
  | percent =>
    simp only [Token.chars, List.mem_cons, List.not_mem_nil, or_false, or_self] at hc
    subst hc
    decide
  | separator d =>
    cases List.mem_singleton.1 hc
    refine ⟨(of_isSeparator ht).2.2.1, ?_⟩
    rintro rfl
    cases ht
  | directive m flags letter =>
    obtain ⟨hm, hf, hl⟩ := ht
    simp only [Token.chars, List.mem_append, List.mem_cons, List.not_mem_nil, or_false,
      Option.mem_toList] at hc
    rcases hc with ((rfl | hc) | hc) | rfl
    · decide
    · refine ⟨?_, ?_⟩ <;> rintro rfl <;> cases hm _ hc
    · refine ⟨(of_isFlag (hf c hc)).2.2.2, ?_⟩
      rintro rfl
      cases hf _ hc
    · refine ⟨(of_isDirectiveLetter hl).2.2.2, ?_⟩
      rintro rfl
      cases hl

theorem notMem_chars (hl : ∀ t ∈ l, t.Valid) : '\n' ∉ chars l ∧ '\ufffd' ∉ chars l := by
  have h : ∀ c ∈ chars l, c ≠ '\n' ∧ c ≠ '\ufffd' := fun c hc => by
    obtain ⟨t, ht, hc⟩ := List.mem_flatMap.1 hc
    exact of_mem_chars (hl t ht) hc
  exact ⟨fun hc => (h _ hc).1 rfl, fun hc => (h _ hc).2 rfl⟩

theorem body_append (hl : ∀ t ∈ l, t.Valid) (hend : IsEnding ending) :
    body (chars l ++ ending) = chars l := by
  unfold body
  rcases hend with rfl | rfl
  · rw [List.append_nil, if_neg]
    exact fun h => (notMem_chars hl).1 (List.mem_of_getLast? h)
  · rw [if_pos List.getLast?_concat, List.dropLast_concat]

theorem exists_ending (cs : List Char) : ∃ ending, IsEnding ending ∧ cs = body cs ++ ending := by
  unfold body
  split
  · next h =>
    obtain ⟨cs, rfl⟩ := List.getLast?_eq_some_iff.1 h
    exact ⟨['\n'], .inr rfl, by rw [List.dropLast_concat]⟩
  · exact ⟨[], .inl rfl, (List.append_nil cs).symm⟩

theorem accepts_iff : accepts cs = true ↔ ∃ l ending, (∀ t ∈ l, t.Valid) ∧ IsEnding ending ∧
    cs = chars l ++ ending ∧ ((∃ t ∈ l, t.isDirective = true) ∨ Misread l) := by
  unfold accepts
  rw [Bool.and_eq_true, Option.any_eq_true]
  constructor
  · rintro ⟨hd, l, hl, -⟩
    obtain ⟨hvalid, hbody⟩ := tokens?_eq_some_iff.1 hl
    obtain ⟨ending, hend, he⟩ := exists_ending cs
    rw [hbody] at he
    rw [he, hasDirective_iff hvalid hend] at hd
    exact ⟨l, ending, hvalid, hend, he, hd⟩
  · rintro ⟨l, ending, hvalid, hend, rfl, hd⟩
    refine ⟨(hasDirective_iff hvalid hend).2 hd, l, ?_, ?_⟩
    · rw [body_append hvalid hend]
      exact tokens?_eq_some_iff.2 ⟨hvalid, rfl⟩
    · rcases hd with ⟨t, ht, -⟩ | ⟨l₁, l₂, rfl, -⟩
      · cases l with
        | nil => cases ht
        | cons => rfl
      · cases l₁ <;> rfl

/-- A run of tokens with a directive among them. -/
def Grammatical (format : Text) : Prop :=
  ∃ l, (∀ t ∈ l, t.Valid) ∧ (∃ t ∈ l, t.isDirective = true) ∧ format = .ofChars (chars l)

/-- The formats that pass the test although they are not of the grammar. -/
inductive Slips (format : Text) : Prop
  | newline (l : List Token) (hl : ∀ t ∈ l, t.Valid)
      (hd : (∃ t ∈ l, t.isDirective = true) ∨ Misread l)
      (he : format = .ofChars (chars l ++ ['\n']))
  | escape (l : List Token) (hl : ∀ t ∈ l, t.Valid) (hd : ¬ ∃ t ∈ l, t.isDirective = true)
      (hm : Misread l) (he : format = .ofChars (chars l))

theorem accepts_masked_iff (format : Text) :
    accepts format.masked = true ↔ Grammatical format ∨ Slips format := by
  rw [accepts_iff]
  constructor
  · rintro ⟨l, ending, hl, hend, he, hd⟩
    have hmask : '\ufffd' ∉ chars l ++ ending := by
      rw [List.mem_append, not_or]
      refine ⟨(notMem_chars hl).2, ?_⟩
      rcases hend with rfl | rfl <;> decide
    have hformat := Text.eq_ofChars_of_masked he hmask
    rcases hend with rfl | rfl
    · rw [List.append_nil] at hformat
      by_cases hdir : ∃ t ∈ l, t.isDirective = true
      · exact .inl ⟨l, hl, hdir, hformat⟩
      · exact .inr (.escape l hl hdir (hd.resolve_left hdir) hformat)
    · exact .inr (.newline l hl hd hformat)
  · rintro (⟨l, hl, hd, rfl⟩ | ⟨l, hl, hd, rfl⟩ | ⟨l, hl, -, hm, rfl⟩)
    · exact ⟨l, [], hl, .inl rfl, by simp, .inl hd⟩
    · exact ⟨l, ['\n'], hl, .inr rfl, by simp, hd⟩
    · exact ⟨l, [], hl, .inl rfl, by simp, .inr hm⟩

theorem ofChars_injective : Function.Injective Text.ofChars := fun cs cs' h => by
  have hmasked := congrArg Text.masked h
  rwa [Text.masked_ofChars, Text.masked_ofChars] at hmasked

theorem chars_injective {l' : List Token} (hl : ∀ t ∈ l, t.Valid) (hl' : ∀ t ∈ l', t.Valid)
    (h : chars l = chars l') : l = l' :=
  Option.some.inj ((tokens?_eq_some_iff.2 ⟨hl, rfl⟩).symm.trans
    (tokens?_eq_some_iff.2 ⟨hl', h⟩))

theorem Grammatical.not_slips {format : Text} (h : Grammatical format) : ¬ Slips format := by
  obtain ⟨l, hl, hd, rfl⟩ := h
  rintro (⟨l', hl', -, he⟩ | ⟨l', hl', hn, -, he⟩)
  · refine (notMem_chars hl).1 ?_
    rw [ofChars_injective he]
    exact List.mem_append_right _ (List.mem_singleton_self _)
  · cases chars_injective hl hl' (ofChars_injective he)
    exact hn hd

/-- A format that is not empty is used as it is, without a warning, if it is a run of tokens with a
directive among them, or passes by one of the two slips; these are other formats. Any other gives
way to the standard one, with a warning. -/
theorem validate_date_exact (format : Text) (h : format ≠ "") :
    (validate format = .accept format ↔ Grammatical format ∨ Slips format) ∧
      (validate format = .reject standard ↔ ¬ (Grammatical format ∨ Slips format)) ∧
      ¬ (Grammatical format ∧ Slips format) := by
  unfold validate
  rw [Verdict.ofTest_of_ne_empty h, ← accepts_masked_iff]
  refine ⟨?_, ?_, fun hboth => hboth.1.not_slips hboth.2⟩
  · cases accepts format.masked <;> simp [Verdict.accept]
  · cases accepts format.masked <;> simp [Verdict.reject]

/-- A modifier, a flag and an escape, with a directive in between. -/
theorem validate_date_exact_modified :
    ("%%%E-dT" : Text) ≠ "" ∧ Grammatical "%%%E-dT" ∧
      validate "%%%E-dT" = .accept "%%%E-dT" := by
  have hne : ("%%%E-dT" : Text) ≠ "" := by decide +kernel
  have hg : Grammatical "%%%E-dT" :=
    ⟨[.percent, .directive (some 'E') ['-'] 'd', .separator 'T'], by decide, by decide,
      by decide +kernel⟩
  exact ⟨hne, hg, (validate_date_exact _ hne).1.2 (.inl hg)⟩

/-- A date with a newline behind it is used as it is, and so is an escape with a letter, of which no
part stands for a part of a date. -/
theorem newline_and_escape_accepted :
    validate "%Y\n" = .accept "%Y\n" ∧ ¬ Grammatical "%Y\n" ∧
      validate "%%-T" = .accept "%%-T" ∧ ¬ Grammatical "%%-T" := by
  have hnewline : Slips "%Y\n" :=
    .newline [.directive none [] 'Y'] (by decide) (.inl (by decide)) (by decide +kernel)
  have hescape : Slips "%%-T" :=
    .escape [.percent, .separator '-', .separator 'T'] (by decide) (by decide)
      ⟨[], _, rfl, .flag (.inl rfl) (.letter (.inl rfl) [])⟩ (by decide +kernel)
  exact ⟨by decide +kernel, fun h => h.not_slips hnewline, by decide +kernel,
    fun h => h.not_slips hescape⟩

end Log.DateFormat

end QuadraticVoting
