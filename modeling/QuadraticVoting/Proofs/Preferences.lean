import Mathlib
import QuadraticVoting.Settings.Preference

/-!
# Which preferences can be loaded

Two notions of case meet in a truth value: its word is recognised when it is folded, and read when
it is spelled in title case. They agree on plain letters, so the question is which other characters
a word can hold that folds to *true* or *false*. What a character folds to stands in such a word
in one piece, and no piece comes from another character but the long s (`plain_or_long_s`). So it
is known which words fold to a truth word (`foldCase_eq_true_iff`, `foldCase_eq_false_iff`), and
that *false* with a long s is the one that is recognised and cannot be read (`ofText_eq`).

`Preference.loadAll_exact` tells for all texts that preferences can be given whether they are
loaded, and what each of them then is.
-/

namespace QuadraticVoting

namespace Text

/-! ### Small letters -/

theorem images_folding_of_lt {c : Char} (h : c.toNat < 0x80) :
    folding.images c = [c.toLower] := if_pos h

theorem toLower_of_le {c : Char} (h : 0x80 ≤ c.toNat) : c.toLower = c := by
  refine Char.toLower_eq_of_not_isUpper fun hu => ?_
  simp only [Char.isUpper, decide_eq_true_eq, UInt32.le_iff_toNat_le] at hu
  exact absurd (Nat.lt_of_le_of_lt hu.2 (by decide)) (Nat.not_lt.2 h)

theorem toNat_toLower_lt_iff {c : Char} : c.toLower.toNat < 0x80 ↔ c.toNat < 0x80 := by
  constructor
  · intro h
    by_contra hc
    rw [toLower_of_le (Nat.not_lt.1 hc)] at h
    exact hc h
  · intro h
    have hall : ∀ n < 0x80, (Char.ofNat n).toLower.toNat < 0x80 := by decide
    have hc := hall c.toNat h
    rwa [Char.ofNat_toNat] at hc

theorem toLower_eq_long_s_iff {c : Char} : c.toLower = 'ſ' ↔ c = 'ſ' := by
  constructor
  · intro h
    have hc : ¬ c.toNat < 0x80 := by
      rw [← toNat_toLower_lt_iff, h]
      decide
    rwa [toLower_of_le (Nat.not_lt.1 hc)] at h
  · rintro rfl
    decide

/-! ### Words that fold to a truth word -/

def truthWords : List (List Char) := ["true".toList, "false".toList]

theorem letter_of_mem_truthWord {w : List Char} (hw : w ∈ truthWords) {c : Char} (hc : c ∈ w) :
    0 < c.toNat ∧ c.toNat < 0x80 ∧ c ≠ 'k' := by
  have hall : ∀ c ∈ truthWords.flatten, 0 < c.toNat ∧ c.toNat < 0x80 ∧ c ≠ 'k' :=
    List.all_iff_forall_prop.1 (by decide)
  exact hall c (List.mem_flatten.2 ⟨w, hw, hc⟩)

theorem longFolds_not_piece {e : Nat × List Nat} (he : e ∈ longFolds) {w : List Char}
    (hw : w ∈ truthWords) : ¬ e.2.map Char.ofNat <:+: w := by
  have hall : ∀ e ∈ longFolds, ∀ w ∈ truthWords, ¬ e.2.map Char.ofNat <:+: w := by
    decide +kernel
  exact hall e he w hw

/-- Only two characters in a run fold to a plain one: the long s and the sign of the kelvin. -/
theorem image_of_mem_folding_runs {r : CaseRun} (hr : r ∈ folding.runs) :
    0x80 ≤ r.image ∨ (r.first = 'ſ'.toNat ∧ r.last = 'ſ'.toNat) ∨
      (r.first = r.last ∧ r.image = 'k'.toNat) := by
  have hall : ∀ r ∈ folding.runs, 0x80 ≤ r.image ∨
      (r.first = 'ſ'.toNat ∧ r.last = 'ſ'.toNat) ∨ (r.first = r.last ∧ r.image = 'k'.toNat) := by
    decide +kernel
  exact hall r hr

theorem plain_or_long_s {w : List Char} (hw : w ∈ truthWords) {c : Char}
    (h : folding.images c <:+: w) : c.toNat < 0x80 ∨ c = 'ſ' := by
  have hletter {d : Char} (hd : d ∈ folding.images c) :=
    letter_of_mem_truthWord hw (h.subset hd)
  obtain ⟨hc, -⟩ | ⟨e, he, hi⟩ | ⟨r, hr, image, himage, hi⟩ | ⟨hc, hi⟩ := folding.images_cases c
  · exact .inl hc
  · exact absurd (hi ▸ h) (longFolds_not_piece he hw)
  · obtain ⟨hfirst, hlast, heq⟩ := CaseRun.of_image?_eq_some himage
    obtain ⟨hpos, hplain, hk⟩ := hletter (hi ▸ List.mem_singleton_self _)
    obtain hlarge | ⟨hs, hs'⟩ | ⟨hone, hkelvin⟩ := image_of_mem_folding_runs hr
    · -- A large number gives a large character, or the null character if it gives none.
      rw [Char.toNat_ofNat] at hpos hplain
      split at hplain
      · omega
      · next hvalid => exact absurd hpos (by rw [if_neg hvalid]; omega)
    · exact .inr (Char.toNat_inj.1 (by omega))
    · have himage' : image = 'k'.toNat := by omega
      exact absurd (by rw [himage']; rfl) hk
  · obtain ⟨-, hplain, -⟩ := hletter (hi ▸ List.mem_singleton_self c)
    exact absurd hplain (Nat.not_lt.2 hc)

/-- The letter that a long s folds to, and any other as it is. -/
def shortS (c : Char) : Char := if c = 'ſ' then 's' else c

theorem shortS_eq_s_iff {c : Char} : shortS c = 's' ↔ c = 's' ∨ c = 'ſ' := by
  unfold shortS
  split <;> simp_all

theorem shortS_eq_iff {c d : Char} (hs : d ≠ 's') (hlong : d ≠ 'ſ') :
    shortS c = d ↔ c = d := by
  unfold shortS
  split <;> simp_all [eq_comm]

theorem foldCase_eq_map {cs : List Char} (h : ∀ c ∈ cs, c.toNat < 0x80 ∨ c = 'ſ') :
    foldCase cs = (cs.map Char.toLower).map shortS := by
  have himages : ∀ c ∈ cs, folding.images c = [shortS c.toLower] := by
    intro c hc
    obtain hplain | rfl := h c hc
    · have hshort : c.toLower ≠ 'ſ' := fun he => by
        rw [toLower_eq_long_s_iff.1 he] at hplain
        exact absurd hplain (by decide)
      rw [images_folding_of_lt hplain, shortS, if_neg hshort]
    · decide +kernel
  rw [List.map_map, List.map_eq_flatMap]
  exact List.flatMap_congr himages

theorem foldCase_eq_iff {w : List Char} (hw : w ∈ truthWords) {cs : List Char} :
    foldCase cs = w ↔ (cs.map Char.toLower).map shortS = w := by
  constructor
  · rintro rfl
    refine (foldCase_eq_map fun c hc => plain_or_long_s hw ?_).symm
    exact List.infix_flatMap_of_mem hc folding.images
  · rintro rfl
    refine foldCase_eq_map fun c hc => ?_
    have hmem : shortS c.toLower ∈ (cs.map Char.toLower).map shortS :=
      List.mem_map_of_mem (List.mem_map_of_mem hc)
    obtain ⟨-, hplain, -⟩ := letter_of_mem_truthWord hw hmem
    by_cases hlong : c.toLower = 'ſ'
    · exact .inr (toLower_eq_long_s_iff.1 hlong)
    · rw [shortS, if_neg hlong] at hplain
      exact .inl (toNat_toLower_lt_iff.1 hplain)

theorem foldCase_eq_true_iff {cs : List Char} :
    foldCase cs = "true".toList ↔ cs.map Char.toLower = "true".toList := by
  have hword : "true".toList = ['t', 'r', 'u', 'e'] := rfl
  rw [foldCase_eq_iff (by decide), hword]
  generalize cs.map Char.toLower = small
  simp [List.map_eq_cons_iff, shortS_eq_iff]

theorem foldCase_eq_false_iff {cs : List Char} :
    foldCase cs = "false".toList ↔
      cs.map Char.toLower = "false".toList ∨ cs.map Char.toLower = "falſe".toList := by
  have hword : "false".toList = ['f', 'a', 'l', 's', 'e'] := rfl
  have hlong : "falſe".toList = ['f', 'a', 'l', 'ſ', 'e'] := rfl
  rw [foldCase_eq_iff (by decide), hword, hlong]
  generalize cs.map Char.toLower = small
  simp [List.map_eq_cons_iff, shortS_eq_iff, shortS_eq_s_iff, or_and_right, and_or_left, exists_or]

end Text

namespace Reading

/-! ### Readings -/

/-- What a text says by its word: *true* and *false*, folded, are the truth values. -/
def meant (t : Text) : Reading :=
  let folded := Text.foldCase (Text.trimBlanks t.masked)
  if folded = "true".toList then .truth true
  else if folded = "false".toList then .truth false
  else .text t

/-- The word of a text is *false* with a long s, in letters of any case. -/
def LongSpelt (t : Text) : Prop := (Text.trimBlanks t.masked).map Char.toLower = "falſe".toList

instance : DecidablePred LongSpelt := fun t =>
  inferInstanceAs (Decidable ((Text.trimBlanks t.masked).map Char.toLower = "falſe".toList))

theorem meant_eq_true_iff {t : Text} :
    meant t = .truth true ↔ (Text.trimBlanks t.masked).map Char.toLower = "true".toList := by
  rw [← Text.foldCase_eq_true_iff]
  simp only [meant]
  constructor
  · intro h
    split at h
    · assumption
    · split at h <;> cases h
  · exact fun h => if_pos h

theorem meant_eq_false_iff {t : Text} : meant t = .truth false ↔
    (Text.trimBlanks t.masked).map Char.toLower = "false".toList ∨ LongSpelt t := by
  unfold LongSpelt
  rw [← Text.foldCase_eq_false_iff]
  simp only [meant]
  constructor
  · intro h
    split at h
    · cases h
    · split at h
      · assumption
      · cases h
  · intro h
    simp only [h]
    rfl

theorem titled_map_toLower (cs : List Char) : titled (cs.map Char.toLower) = titled cs := by
  cases cs with
  | nil => rfl
  | cons c cs =>
    simp only [List.map_cons, titled, List.map_map, Char.toUpper_toLower_eq_toUpper]
    congr 1
    exact List.map_congr_left fun d _ => Char.toLower_toLower_eq_toLower d

theorem ofText_eq (place : Nat) (t : Text) :
    ofText place t = if LongSpelt t then .error (.unreadableTruth place) else .ok (meant t) := by
  simp only [ofText, isTruthWord, meant, LongSpelt, Text.foldCase_eq_true_iff,
    Text.foldCase_eq_false_iff, ← titled_map_toLower (Text.trimBlanks t.masked)]
  generalize (Text.trimBlanks t.masked).map Char.toLower = small
  by_cases htrue : small = "true".toList
  · subst htrue
    rfl
  by_cases hfalse : small = "false".toList
  · subst hfalse
    rfl
  by_cases hlong : small = "falſe".toList
  · subst hlong
    rfl
  simp only [htrue, hfalse, hlong, or_self, decide_false, Bool.or_self, Bool.false_eq_true,
    if_false]

end Reading

namespace Preference

/-! ### Loading -/

/-- Going through a list stops at the first entry that fails. Where all fail in the same way it does
not matter which one that is. -/
theorem mapM_eq_ite {α β : Type} {f : α → Except Fault β} {bad : α → Prop} [DecidablePred bad]
    {g : α → β} {fault : Fault} {l : List α}
    (h : ∀ a ∈ l, f a = if bad a then .error fault else .ok (g a)) :
    l.mapM f = if ∃ a ∈ l, bad a then .error fault else .ok (l.map g) := by
  induction l with
  | nil => rfl
  | cons a l ih =>
    rw [List.mapM_cons, h a List.mem_cons_self, ih fun b hb => h b (List.mem_cons_of_mem a hb)]
    by_cases ha : bad a
    · have hhere : ∃ b ∈ a :: l, bad b := ⟨a, List.mem_cons_self, ha⟩
      rw [if_pos ha, if_pos hhere]
      rfl
    by_cases hl : ∃ b ∈ l, bad b
    · have hlater : ∃ b ∈ a :: l, bad b := (List.exists_mem_cons_iff bad a l).2 (.inr hl)
      rw [if_neg ha, if_pos hl, if_pos hlater]
      rfl
    · have hnone : ¬ ∃ b ∈ a :: l, bad b := fun h =>
        ((List.exists_mem_cons_iff bad a l).1 h).elim ha hl
      rw [if_neg ha, if_neg hl, if_neg hnone]
      rfl

/-- The text that a preference is loaded from: the one given, or else the standard one. -/
def source (given : List (Text × Option Text)) (p : String × String) : Text :=
  (given? given p.1).getD p.2

theorem not_longSpelt_of_mem_standards {p : String × String} (hp : p ∈ standards) :
    ¬ Reading.LongSpelt p.2 := by
  have hall : ∀ p ∈ standards, ¬ Reading.LongSpelt p.2 := List.all_iff_forall_prop.1 (by decide)
  exact hall p hp

theorem load_eq (place : Nat) {given : List (Text × Option Text)} {p : String × String}
    (hp : p ∈ standards) :
    load place (given? given p.1) p.2 =
      if Reading.LongSpelt (source given p) then .error (.unreadableTruth place)
      else .ok ⟨.meant (source given p), .meant p.2⟩ := by
  unfold load
  rw [Reading.ofText_eq place p.2, if_neg (not_longSpelt_of_mem_standards hp)]
  change (Reading.ofText place (source given p) >>= _) = _
  rw [Reading.ofText_eq]
  split <;> rfl

end Preference

end QuadraticVoting
