import QuadraticVoting.Proofs.Admission
import QuadraticVoting.Proofs.Specifiers

/-!
# Which line formats are accepted

A line format is usable if each of its specifiers belongs to a conversion that the template is
really read as (`Genuine`), if there is a conversion with a name in it, and if a sample record fills
it. Two of these are tested as they stand. That the specifiers are genuine is concluded from the
text, where each has to follow a percent sign, and from the line, which must not hold one: behind
an escape a specifier is written out (`genuine_of_trial`).

So no format that is not usable is accepted (`validate_line_exact`). But the line of a usable one
can hold a specifier as well, where a value meets brackets, and a number or a text out of all bounds
is no verdict.
-/

namespace QuadraticVoting

theorem map_eq_ok_iff {ε α β : Type} {f : α → β} {x : Except ε α} {b : β} :
    x.map f = .ok b ↔ ∃ a, x = .ok a ∧ b = f a := by
  cases x with
  | error e => exact ⟨nofun, fun ⟨_, h, _⟩ => nomatch h⟩
  | ok a =>
    refine ⟨fun h => ⟨a, rfl, (Except.ok.inj h).symm⟩, ?_⟩
    rintro ⟨_, h, rfl⟩
    cases h
    rfl

theorem Strand.textOf_append (l l' : List Strand) : textOf (l ++ l') = textOf l ++ textOf l' :=
  congrArg Text.ofList List.flatMap_append

namespace Log

namespace Template

variable {ps qs rest : List CodePoint} {p : CodePoint} {n : Nat} {c : Conversion}
  {table : List (Text × Operand)} {next : Option Operand} {src : Source}

/-! ### Pieces of a template -/

theorem piecesFrom_literal (h : p ≠ '%') :
    piecesFrom n (p :: ps) = .literal p :: piecesFrom n ps := by
  rw [piecesFrom, if_neg h]
  rintro ps rfl
  exact absurd rfl h

/-- What is left of a template of the given length after some of its pieces. -/
inductive Reads (length : Nat) : List CodePoint → List CodePoint → Prop
  | refl (ps : List CodePoint) : Reads length ps ps
  | percent {ps rest : List CodePoint} : Reads length ps rest → Reads length ('%' :: '%' :: ps) rest
  | conversion {ps rest : List CodePoint} : ps.head? ≠ some (.char '%') →
      Reads length (takeConversion length ps).2 rest → Reads length ('%' :: ps) rest
  | literal {p : CodePoint} {ps rest : List CodePoint} : p ≠ '%' → Reads length ps rest →
      Reads length (p :: ps) rest

/-! ### Parts of a conversion -/

/-- A part without an opening bracket is taken off. -/
def TakesOff (ps rest : List CodePoint) : Prop := ∃ front, .char '(' ∉ front ∧ ps = front ++ rest

theorem TakesOff.refl (ps : List CodePoint) : TakesOff ps ps := ⟨[], by simp, rfl⟩

theorem TakesOff.trans (h : TakesOff ps qs) (h' : TakesOff qs rest) : TakesOff ps rest := by
  obtain ⟨front, hfront, rfl⟩ := h
  obtain ⟨front', hfront', rfl⟩ := h'
  exact ⟨front ++ front', by simp [hfront, hfront'], by simp⟩

theorem TakesOff.suffix (h : TakesOff ps rest) : rest <:+ ps := by
  obtain ⟨front, -, rfl⟩ := h
  exact List.suffix_append front rest

theorem takesOff_cons (h : p ≠ '(') : TakesOff (p :: ps) ps :=
  ⟨[p], by simpa using h.symm, rfl⟩

theorem takesOff_dropWhile {cls : Char → Bool} (h : cls '(' = false) :
    TakesOff ps (ps.dropWhile (·.is cls)) := by
  refine ⟨ps.takeWhile (·.is cls), fun hm => ?_, List.takeWhile_append_dropWhile.symm⟩
  have hopen : cls '(' = true :=
    List.mem_takeWhile_imp (p := fun q : CodePoint => q.is cls) hm
  cases h.symm.trans hopen

theorem takesOff_takeSize (limit : Nat) (missing : Size) (ps : List CodePoint) :
    TakesOff ps (takeSize limit missing ps).2 := by
  unfold takeSize
  split
  · exact takesOff_cons (by decide)
  · exact takesOff_dropWhile rfl

theorem takesOff_takePrecision (ps : List CodePoint) : TakesOff ps (takePrecision ps).2 := by
  unfold takePrecision
  split
  · exact (takesOff_cons (by decide)).trans (takesOff_takeSize ..)
  · exact .refl _

theorem takesOff_afterSizeLetter (ps : List CodePoint) : TakesOff ps (afterSizeLetter ps) := by
  unfold afterSizeLetter
  split
  · exact .refl _
  · split
    · next p ps h =>
      refine takesOff_cons ?_
      rintro rfl
      cases h
    · exact .refl _

theorem keyEnd_eq {depth : Nat} {k : List CodePoint} (h : keyEnd depth ps = some (k, rest)) :
    ps = k ++ .char ')' :: rest := by
  induction ps generalizing depth k with
  | nil => cases h
  | cons p ps ih =>
    rw [keyEnd] at h
    split at h
    · next hp =>
      cases h
      rw [hp.1, List.nil_append]
    · obtain ⟨⟨k', rest'⟩, hk, he⟩ := Option.map_eq_some_iff.1 h
      cases he
      exact congrArg (p :: ·) (ih hk)

/-- No key, or one without brackets in it. -/
def Key.IsFlat : Key → Prop
  | .unset => True
  | .named key => .char '(' ∉ key.toList
  | .unclosed => False

theorem takeKey_eq (h : (takeKey ps).1.IsFlat) :
    ∃ front, .char '(' ∉ front.tail ∧ ps = front ++ (takeKey ps).2 := by
  unfold takeKey at h ⊢
  split at h
  · next ps =>
    split at h
    · next k rest he =>
      refine ⟨.char '(' :: k ++ [.char ')'], ?_, ?_⟩
      · have hk : .char '(' ∉ k := h
        simpa using hk
      · simp [keyEnd_eq he]
    · cases h
  · exact ⟨[], by simp, by simp⟩

theorem takeKey_suffix (ps : List CodePoint) : (takeKey ps).2 <:+ ps := by
  unfold takeKey
  split
  · next ps =>
    split
    · next k rest he => exact ⟨.char '(' :: k ++ [.char ')'], by simp [keyEnd_eq he]⟩
    · exact List.nil_suffix
  · exact List.suffix_rfl

theorem takeConversion_spec (n : Nat) (ps : List CodePoint) :
    ∃ rest, TakesOff (takeKey ps).2 rest ∧ (takeConversion n ps).1.letter = (takeLetter n rest).1 ∧
      (takeConversion n ps).2 = (takeLetter n rest).2 :=
  ⟨_, (takesOff_dropWhile rfl).trans <| (takesOff_takeSize ..).trans <|
    (takesOff_takePrecision _).trans (takesOff_afterSizeLetter _), rfl, rfl⟩

theorem takeConversion_suffix (n : Nat) (ps : List CodePoint) :
    (takeConversion n ps).2 <:+ ps := by
  obtain ⟨rest, hrest, -, he⟩ := takeConversion_spec n ps
  rw [he]
  refine List.IsSuffix.trans ?_ (hrest.suffix.trans (takeKey_suffix ps))
  cases rest with
  | nil => exact List.suffix_rfl
  | cons p rest => exact List.suffix_cons p rest

/-- A conversion has a bracket at its beginning only, but for its letter. -/
theorem takeConversion_eq {letter : CodePoint} {i : Nat}
    (hkey : (takeConversion n ps).1.key.IsFlat)
    (hletter : (takeConversion n ps).1.letter = some (letter, i)) :
    ∃ front, .char '(' ∉ front.tail ∧ ps = front ++ letter :: (takeConversion n ps).2 := by
  obtain ⟨rest, ⟨body, hbody, hrest⟩, hl, he⟩ := takeConversion_spec n ps
  obtain ⟨front, hfront, hps⟩ := takeKey_eq hkey
  rw [hl] at hletter
  cases rest with
  | nil => cases hletter
  | cons p rest =>
    cases hletter
    refine ⟨front ++ body, ?_, ?_⟩
    · cases front with
      | nil => exact fun h => hbody (List.mem_of_mem_tail h)
      | cons q front => simpa [hbody] using hfront
    · rw [he, List.append_assoc]
      exact hps.trans (congrArg (front ++ ·) hrest)

theorem Reads.suffix (h : Reads n ps rest) : rest <:+ ps := by
  induction h with
  | refl => exact List.suffix_rfl
  | percent _ ih => exact ih.trans ⟨[.char '%', .char '%'], rfl⟩
  | conversion _ _ ih =>
    exact ih.trans ((takeConversion_suffix n _).trans (List.suffix_cons _ _))
  | literal _ _ ih => exact ih.trans (List.suffix_cons _ _)

/-! ### Conversions that a table fills -/

theorem Source.next_keyed {o : Operand} (h : (Source.keyed table next).next = .ok (o, src)) :
    ∃ next', src = .keyed table next' := by
  cases next with
  | none => cases h
  | some o => cases h; exact ⟨none, rfl⟩

theorem Source.select_keyed {key : Key} (h : (Source.keyed table next).select key = .ok src) :
    (∃ next', src = .keyed table next') ∧
      (key = .unset ∨ ∃ e ∈ table, key = .named e.1) := by
  cases key with
  | unset => cases h; exact ⟨⟨next, rfl⟩, .inl rfl⟩
  | unclosed => cases h
  | named key =>
    simp only [select] at h
    split at h
    · next k o he =>
      cases h
      have hkey : k = key := by simpa using List.find?_some he
      exact ⟨⟨some o, rfl⟩, .inr ⟨(k, o), List.mem_of_find?_eq_some he, by rw [hkey]⟩⟩
    · cases h

theorem Size.resolve_keyed {s : Size} {limit : Nat} {tooGreat outOfRange : Failure}
    {w : Option Int} (h : s.resolve limit tooGreat outOfRange (.keyed table next) = .ok (w, src)) :
    ∃ next', src = .keyed table next' := by
  cases s with
  | unset | number => cases h; exact ⟨next, rfl⟩
  | tooGreat => cases h
  | star =>
    obtain ⟨⟨o, src'⟩, hnext, h⟩ := bind_eq_ok_iff.1 h
    obtain ⟨next', rfl⟩ := Source.next_keyed hnext
    dsimp only at h
    split at h
    · cases h
    · split at h
      · cases h
      · cases h
        exact ⟨next', rfl⟩

section AnyHost

variable [Host]

theorem convert?_eq_none {l : Char} {width : Option Int} {precision : Option Nat} {o : Operand}
    (h : l = '%' ∨ l = '(') : convert? c l width precision o = none := by
  rcases h with rfl | rfl <;> rfl

theorem fillConversion_keyed {strands : List Strand}
    (h : fillConversion c (.keyed table next) = .ok (strands, src)) :
    (∃ next', src = .keyed table next') ∧ (c.key = .unset ∨ ∃ e ∈ table, c.key = .named e.1) ∧
      ∃ letter i, c.letter = some (letter, i) ∧ letter ≠ '%' ∧ letter ≠ '(' := by
  obtain ⟨src₁, hselect, h⟩ := bind_eq_ok_iff.1 h
  obtain ⟨⟨next₁, rfl⟩, hkey⟩ := Source.select_keyed hselect
  obtain ⟨⟨width, src₂⟩, hwidth, h⟩ := bind_eq_ok_iff.1 h
  obtain ⟨next₂, rfl⟩ := Size.resolve_keyed hwidth
  obtain ⟨⟨precision, src₃⟩, hprecision, h⟩ := bind_eq_ok_iff.1 h
  obtain ⟨next₃, rfl⟩ := Size.resolve_keyed hprecision
  dsimp only at h
  split at h
  · cases h
  · next letter i hletter =>
    obtain ⟨⟨o, src₄⟩, hnext, h⟩ := bind_eq_ok_iff.1 h
    obtain ⟨next₄, rfl⟩ := Source.next_keyed hnext
    dsimp only at h
    split at h
    · cases h
    · next result hconvert =>
      obtain ⟨strands', -, h⟩ := bind_eq_ok_iff.1 h
      cases h
      obtain ⟨l, hl, hconvert⟩ := Option.bind_eq_some_iff.1 hconvert
      refine ⟨⟨next₄, rfl⟩, hkey, letter, i, hletter, ?_, ?_⟩
      · rintro rfl
        cases hl
        cases (convert?_eq_none (.inl rfl)).symm.trans hconvert
      · rintro rfl
        cases hl
        cases (convert?_eq_none (.inr rfl)).symm.trans hconvert

/-- What stands in front of the first percent sign is in front of the line. -/
theorem prefix_of_fill {s : List Char} {line : List Strand} (hs : '%' ∉ s)
    (h : fillPieces (piecesFrom n (s.map .char ++ rest)) src = .ok line) :
    s <+: (Strand.textOf line).masked := by
  induction s generalizing line with
  | nil => exact List.nil_prefix
  | cons d s ih =>
    obtain ⟨hd, hs⟩ := not_or.1 fun h => hs (List.mem_cons.2 h)
    rw [List.map_cons, List.cons_append,
      piecesFrom_literal fun he => hd (CodePoint.char.inj he).symm, fillPieces] at h
    cases hrest : fillPieces (piecesFrom n (s.map .char ++ rest)) src with
    | error e =>
      rw [hrest] at h
      cases h
    | ok line' =>
      rw [hrest] at h
      cases h
      exact List.cons_prefix_cons.2 ⟨rfl, ih hs hrest⟩

end AnyHost

end Template

namespace LineFormat

open Template

variable {ps : List CodePoint} {n : Nat} {line : Text} {format : Text}

/-! ### Specifiers that belong to a conversion -/

instance : Decidable (Begins ps) := decidable_of_iff _ begins_iff.symm

/-- There is a specifier in the text. -/
def HasSpecifier (t : Text) : Prop := ∃ s, IsSpecifier s ∧ s <:+: t.masked

theorem HasSpecifier.append {t u : Text} (h : HasSpecifier u) : HasSpecifier (t ++ u) := by
  obtain ⟨s, hs, hu⟩ := h
  rw [HasSpecifier, Text.masked_append]
  exact ⟨s, hs, hu.trans (List.suffix_append _ _).isInfix⟩

theorem hasSpecifier_masked_iff : hasSpecifier line.masked = true ↔ HasSpecifier line :=
  hasSpecifier_iff

/-- Wherever a specifier stands in the format, reading comes to the percent sign in front of it, so
that it is the beginning of a conversion and not a text behind an escape. Its letter may be one that
says nothing but a size, with that of the conversion behind it. -/
def Genuine (format : Text) : Prop :=
  ∀ ps, ps <:+ format.toList → Begins ps → Reads format.length format.toList ('%' :: ps)

theorem Genuine.marked (h : Genuine format) : Marked format.toList :=
  fun ps hs hb => (h ps hs hb).suffix

/-- In a piece that is read as a conversion no specifier begins but the one at its key. -/
theorem Begins.suffix_of_conversion {qs front rest : List CodePoint} {letter : CodePoint}
    (hb : Begins qs) (hqs : qs <:+ front ++ letter :: rest) (hfront : .char '(' ∉ front.tail)
    (hletter : letter ≠ '(') : qs = front ++ letter :: rest ∨ qs <:+ rest := by
  obtain ⟨after, rfl⟩ := hb.eq_cons
  obtain ⟨before, he⟩ := hqs
  rcases List.append_eq_append_iff.1 he with ⟨body, rfl, hafter⟩ | ⟨body, -, hrest⟩
  · cases body with
    | nil => exact absurd (List.cons.inj hafter).1.symm hletter
    | cons q body =>
      cases before with
      | nil => exact .inl hafter
      | cons r before =>
        rw [(List.cons.inj hafter).1] at hfront
        exact absurd (List.mem_append_right before List.mem_cons_self) hfront
  · cases body with
    | nil => exact absurd (List.cons.inj hrest).1 hletter
    | cons q body => exact .inr ⟨body, (List.cons.inj hrest).2.symm⟩

theorem Begins.suffix_of_cons {qs : List CodePoint} {p : CodePoint} (hb : Begins qs)
    (hqs : qs <:+ p :: ps) (hp : p ≠ '(') : qs <:+ ps := by
  obtain ⟨after, rfl⟩ := hb.eq_cons
  exact (List.suffix_cons_iff.1 hqs).resolve_left fun he => hp (List.cons.inj he).1.symm

/-- Somewhere in the format there is a conversion with a name. -/
def Recognised (format : Text) : Prop := ∃ s, IsConversion s ∧ s <:+: format.masked

theorem tested_iff : (allMarked false format.masked && hasConversion format.masked) = true ↔
    Marked format.toList ∧ Recognised format := by
  rw [Bool.and_eq_true, hasConversion_iff]
  exact and_congr_left fun _ => allMarked_iff

theorem sample_keys (scene : Scene) (format : Text) :
    ∀ e ∈ sample scene format, .char '(' ∉ e.1.toList := by
  have hfields : ∀ e ∈ fields scene, .char '(' ∉ e.1.toList := by
    have hkeys : ∀ k ∈ (fields .usual).map Prod.fst, .char '(' ∉ k.toList := by decide
    intro e he
    have hkey : e.1 ∈ (fields scene).map Prod.fst := List.mem_map_of_mem he
    exact hkeys e.1 hkey
  unfold sample
  split
  · simpa only [List.concat_eq_append, List.forall_mem_append, List.forall_mem_singleton]
      using ⟨hfields, by decide⟩
  · exact hfields

/-! ### What is left in the line -/

section AnyHost

variable [Host] {scene : Scene}

theorem hasSpecifier_of_begins {src : Source} {line : List Strand} (hb : Begins ps)
    (h : fillPieces (piecesFrom n ps) src = .ok line) : HasSpecifier (Strand.textOf line) := by
  obtain ⟨s, hs, rest, rfl⟩ := hb
  exact ⟨s, hs, (prefix_of_fill (hs.notMem (by decide) (by decide)) h).isInfix⟩

/-- In a template that a table fills, without a specifier in the line, the specifiers that follow a
percent sign are those of its conversions. -/
theorem reads_of_fill {table : List (Text × Operand)} {next : Option Operand}
    {line : List Strand} (htable : ∀ e ∈ table, .char '(' ∉ e.1.toList)
    (hfill : fillPieces (piecesFrom n ps) (.keyed table next) = .ok line)
    (hline : ¬ HasSpecifier (Strand.textOf line)) (hmarked : Marked ps) :
    ∀ qs, qs <:+ ps → Begins qs → Reads n ps ('%' :: qs) := by
  intro qs hqs hb
  fun_induction piecesFrom n ps generalizing next line with
  | case1 =>
    obtain ⟨rest, rfl⟩ := hb.eq_cons
    cases List.suffix_nil.1 hqs
  | case2 ps ih =>
    -- A specifier behind the escape would be in the line.
    obtain ⟨rest, hrest, rfl⟩ := map_eq_ok_iff.1 hfill
    have hnone : ¬ HasSpecifier (Strand.textOf rest) := fun h => hline h.append
    have hfirst : ¬ Begins ps := fun h => hnone (hasSpecifier_of_begins h hrest)
    have hps : ps <:+ .char '%' :: .char '%' :: ps := ⟨[.char '%', .char '%'], rfl⟩
    refine .percent (ih hrest hnone (hmarked.of_suffix hps hfirst) ?_)
    exact hb.suffix_of_cons (hb.suffix_of_cons hqs (by decide)) (by decide)
  | case3 ps hesc ih =>
    have hstart : ps.head? ≠ some (.char '%') := by
      cases ps with
      | nil => simp
      | cons p ps => exact fun h => hesc ps rfl (by rw [Option.some.inj h])
    obtain ⟨⟨strands, src⟩, hconversion, hfill⟩ := bind_eq_ok_iff.1 hfill
    obtain ⟨⟨next', rfl⟩, hkey, letter, i, hletter, hpercent, hopen⟩ :=
      fillConversion_keyed hconversion
    obtain ⟨rest, hrest, he⟩ := bind_eq_ok_iff.1 hfill
    cases pure_eq_ok_iff.1 he
    have hflat : (takeConversion n ps).1.key.IsFlat := by
      rcases hkey with hkey | ⟨e, he, hkey⟩
      · rw [hkey]
        trivial
      · rw [hkey]
        exact htable e he
    obtain ⟨front, hfront, hps⟩ := takeConversion_eq hflat hletter
    have hqs := hb.suffix_of_cons hqs (by decide)
    rw [hps] at hqs
    rcases hb.suffix_of_conversion hqs hfront hopen with hq | hq
    · rw [hq, ← hps]
      exact .refl _
    · refine .conversion hstart (ih hrest ?_ ?_ hq)
      · exact fun h => hline (by rw [Strand.textOf_append]; exact h.append)
      · refine Marked.of_append (.char '%' :: front) ?_ hpercent
        rw [List.cons_append, ← hps]
        exact hmarked
  | case4 p ps hesc hp ih =>
    obtain ⟨rest, hrest, rfl⟩ := map_eq_ok_iff.1 hfill
    have hnone : ¬ HasSpecifier (Strand.textOf rest) := fun h => hline h.append
    refine .literal hp (ih hrest hnone (Marked.of_append [] hmarked hp) ?_)
    refine (List.suffix_cons_iff.1 hqs).resolve_left fun he => ?_
    have hlong := (hmarked qs hqs hb).length_le
    rw [he] at hlong
    exact Nat.not_succ_le_self _ hlong

theorem genuine_of_trial (hmarked : Marked format.toList) (hfill : trial scene format = .ok line)
    (hline : ¬ HasSpecifier line) : Genuine format := by
  obtain ⟨strands, hstrands, rfl⟩ := map_eq_ok_iff.1 hfill
  exact reads_of_fill (sample_keys scene format) hstrands hline hmarked

/-! ### Verdicts -/

structure Usable (scene : Scene) (format : Text) : Prop where
  genuine : Genuine format
  recognised : Recognised format
  filled : ∃ line, trial scene format = .ok line

/-- The line of the sample record has a specifier in it. -/
def Mistaken (scene : Scene) (format : Text) : Prop :=
  ∃ line, trial scene format = .ok line ∧ HasSpecifier line

/-- The sample record does not fill the format, for a number or a text out of all bounds. -/
def Boundless (scene : Scene) (format : Text) (why : Failure) : Prop :=
  Marked format.toList ∧ Recognised format ∧ trial scene format = .error why ∧
    isBoundless why = true

theorem passes_eq_true_iff :
    passes scene format = .ok true ↔ Usable scene format ∧ ¬ Mistaken scene format := by
  rw [passes_eq]
  split
  · next h =>
    obtain ⟨hmarked, hrecognised⟩ := tested_iff.1 h
    rw [map_eq_ok_iff]
    constructor
    · rintro ⟨line, hfill, hline⟩
      have hnone : ¬ HasSpecifier line := fun h => by simp [hasSpecifier_masked_iff.2 h] at hline
      refine ⟨⟨genuine_of_trial hmarked hfill hnone, hrecognised, line, hfill⟩, ?_⟩
      rintro ⟨line', hfill', hline'⟩
      cases hfill.symm.trans hfill'
      exact hnone hline'
    · rintro ⟨⟨-, -, line, hfill⟩, hmistaken⟩
      refine ⟨line, hfill, ?_⟩
      have hnone : ¬ hasSpecifier line.masked = true := fun h =>
        hmistaken ⟨line, hfill, hasSpecifier_masked_iff.1 h⟩
      simp [hnone]
  · next h =>
    refine iff_of_false (by simp) ?_
    rintro ⟨⟨hgenuine, hrecognised, -⟩, -⟩
    exact h (tested_iff.2 ⟨hgenuine.marked, hrecognised⟩)

theorem passes_eq_error_iff {why : Failure} : passes scene format = .error why ↔
    Marked format.toList ∧ Recognised format ∧ trial scene format = .error why := by
  rw [passes_eq]
  split
  · next h =>
    obtain ⟨hmarked, hrecognised⟩ := tested_iff.1 h
    cases trial scene format <;> simp [Except.map, hmarked, hrecognised]
  · next h => exact iff_of_false (by simp) fun hall => h (tested_iff.2 ⟨hall.1, hall.2.1⟩)

theorem validate_eq (h : format ≠ "") : validate scene format =
    match passes scene format with
    | .ok true => .ok (.accept format)
    | .ok false => .ok (.reject standard)
    | .error why =>
      if isBoundless why then .error (.unfilledTemplate why) else .ok (.reject standard) :=
  if_neg h

/-- A format that is not empty is used as it is, without a warning, if it is usable and its line is
not mistaken. It is refused with the failure as a fault if a number or a text grows out of all
bounds in it. Any other gives way to the standard one, with a warning. -/
theorem validate_line_exact (scene : Scene) (format : Text) (h : format ≠ "") :
    (validate scene format = .ok (.accept format) ↔ Usable scene format ∧ ¬ Mistaken scene format) ∧
      (∀ fault, validate scene format = .error fault ↔
        ∃ why, Boundless scene format why ∧ fault = .unfilledTemplate why) ∧
      (validate scene format = .ok (.reject standard) ↔
        ¬ (Usable scene format ∧ ¬ Mistaken scene format) ∧
          ∀ why, ¬ Boundless scene format why) := by
  have hbound : ∀ why, Boundless scene format why ↔
      passes scene format = .error why ∧ isBoundless why = true := fun why => by
    rw [passes_eq_error_iff]
    exact ⟨fun ⟨hm, hr, hf, hb⟩ => ⟨⟨hm, hr, hf⟩, hb⟩, fun ⟨⟨hm, hr, hf⟩, hb⟩ => ⟨hm, hr, hf, hb⟩⟩
  simp only [← passes_eq_true_iff, hbound, validate_eq h]
  rcases passes scene format with why | verdict
  · cases hb : isBoundless why
    · simp [Verdict.accept, Verdict.reject, hb]
    · simpa [Verdict.accept, Verdict.reject, hb] using fun fault => eq_comm
  · cases verdict <;> simp [Verdict.accept, Verdict.reject]

end AnyHost

/-- Two conversions with a name, a size letter and an escape. -/
theorem validate_line_exact_sized :
    ("%(asctime)s %(levelno)hd%%" : Text) ≠ "" ∧ Usable .usual "%(asctime)s %(levelno)hd%%" ∧
      ¬ Mistaken .usual "%(asctime)s %(levelno)hd%%" ∧
      validate .usual "%(asctime)s %(levelno)hd%%" =
        .ok (.accept "%(asctime)s %(levelno)hd%%") := by
  have hne : ("%(asctime)s %(levelno)hd%%" : Text) ≠ "" := by decide +kernel
  have hpass : passes .usual "%(asctime)s %(levelno)hd%%" = .ok true := by decide +kernel
  obtain ⟨husable, hline⟩ := passes_eq_true_iff.1 hpass
  exact ⟨hne, husable, hline, (validate_line_exact .usual _ hne).1.2 ⟨husable, hline⟩⟩

/-- A name in brackets is filled in right, and the line `(test)x` is taken for a conversion that was
left over. The number of a thread is no character. -/
theorem bracketed_name_refused :
    Usable .usual "(%(name)s)x" ∧ validate .usual "(%(name)s)x" = .ok (.reject standard) ∧
      ¬ Usable .usual "%(thread)c" ∧
      validate .usual "%(thread)c" = .error (.unfilledTemplate .noCodePoint) := by
  have hbegins : ∀ ps ∈ List.tails (Text.toList "(%(name)s)x"), Begins ps →
      ps = Text.toList "(name)s)x" := by decide +kernel
  have hgenuine : Genuine "(%(name)s)x" := by
    intro ps hs hb
    rw [hbegins ps ((List.mem_tails _ _).2 hs) hb]
    exact .literal (by decide) (.refl _)
  have hfill : trial .usual "(%(name)s)x" = .ok "(test)x" := by decide +kernel
  have hconversion : hasConversion (Text.masked "(%(name)s)x") = true := by decide +kernel
  refine ⟨⟨hgenuine, hasConversion_iff.1 hconversion, _, hfill⟩, by decide +kernel, ?_,
    by decide +kernel⟩
  rintro ⟨-, -, line, hline⟩
  have hfail : trial .usual "%(thread)c" = .error .noCodePoint := by decide +kernel
  cases hfail.symm.trans hline

end LineFormat

end Log

end QuadraticVoting
