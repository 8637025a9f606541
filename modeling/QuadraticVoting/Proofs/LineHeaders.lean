import Mathlib.Data.Bool.AllAny
import QuadraticVoting.Log.Highlight
import QuadraticVoting.Log.Record
import QuadraticVoting.Proofs.SafeTexts

/-!
# The header of a line and its colours

A line is written as a date, a level, a logger's name and a message, and coloured by rules that know
nothing of how it was written. They agree on the header: the date is the only timestamp, and the
first part in the colour of the level and the first logger's name are those of the header, whatever
the message says (`spansOf_header`). Of the terminal it is only asked that it shows all of a line
that is harmless.

A search over a text goes on where it has found nothing so far (`spansFrom_append`), so the first
part of a group is found by showing that its rule misses all that stands before (`Misses`).
-/

namespace QuadraticVoting

namespace Text

variable {rule : Rule} {a b : List Char} {before : Option Char} {place : Nat} {m : Match}

/-! ### The first match of a rule -/

/-- The rule matches nowhere in a part of a text, of which the given rest follows. -/
def Misses (rule : Rule) : (before : Option Char) → (part rest : List Char) → Prop
  | _, [], _ => True
  | before, c :: part, rest =>
    rule before (c :: (part ++ rest)) = none ∧ Misses rule (some c) part rest

theorem getLast?_cons_or (c : Char) (a : List Char) (before : Option Char) :
    (c :: a).getLast?.or before = a.getLast?.or (some c) := by
  rw [List.getLast?_cons]
  cases a.getLast? <;> rfl

theorem misses_append {rest : List Char} : Misses rule before (a ++ b) rest ↔
    Misses rule before a (b ++ rest) ∧ Misses rule (a.getLast?.or before) b rest := by
  induction a generalizing before with
  | nil => simp [Misses]
  | cons c a ih =>
    rw [List.cons_append, Misses, Misses, ih, getLast?_cons_or, List.append_assoc, and_assoc]

theorem spansFrom_append (h : Misses rule before a b) :
    spansFrom rule 0 place before (a ++ b) =
      spansFrom rule 0 (place + a.length) (a.getLast?.or before) b := by
  induction a generalizing place before with
  | nil => rfl
  | cons c a ih =>
    rw [List.cons_append, spansFrom, h.1]
    dsimp only
    rw [ih h.2, getLast?_cons_or, List.length_cons, Nat.add_right_comm, Nat.add_assoc]

/-- The place of a part of a text, behind the given one. -/
def Span.behind (before part : Text) : Span := ⟨before.length, before.length + part.length⟩

theorem head?_spans (hmiss : Misses rule none a b) (hb : b ≠ [])
    (hmatch : rule a.getLast? b = some m) :
    (spans rule (a ++ b)).head? = some ⟨a.length + m.skip, a.length + m.length⟩ := by
  obtain ⟨c, b, rfl⟩ := List.exists_cons_of_ne_nil hb
  rw [spans, spansFrom_append hmiss, Option.or_none, spansFrom, hmatch, Nat.zero_add]
  rfl

theorem misses_of_forall (h : ∀ c ∈ a, ∀ before rest, rule before (c :: rest) = none) :
    Misses rule before a b := by
  induction a generalizing before with
  | nil => trivial
  | cons c a ih =>
    obtain ⟨hc, ha⟩ := List.forall_mem_cons.1 h
    exact ⟨hc before _, ih ha⟩

theorem afterRun?_append {p : Char → Bool} (hne : a ≠ []) (h : ∀ c ∈ a, p c = true)
    (hb : ∀ c ∈ b.head?, p c = false) : afterRun? p (a ++ b) = some b := by
  obtain ⟨c, a, rfl⟩ := List.exists_cons_of_ne_nil hne
  obtain ⟨hc, ha⟩ := List.forall_mem_cons.1 h
  rw [List.cons_append, afterRun?, if_pos hc, List.dropWhile_append_of_pos ha]
  cases b with
  | nil => rfl
  | cons d b => rw [List.dropWhile_cons_of_neg (by simp [hb d rfl])]

theorem upTo_append (a b : List Char) : upTo (a ++ b) b = ⟨a.length, 0⟩ := by
  rw [upTo, List.length_append, Nat.add_sub_cancel]

end Text

namespace Log

open Text (Misses Span spans)

/-! ### What is shown of a line -/

theorem sanitize_append {a : Text} (h : ∀ p ∈ a.toList, p.IsHarmless) (b : Text) :
    sanitize (a ++ b) = a ++ sanitize b := by
  have hkeep : a.toList.filter (fun p => !p.is isUnsafe) = a.toList :=
    List.filter_eq_self.2 fun p hp => by rw [isHarmless_iff.1 (h p hp), Bool.not_false]
  refine congrArg Text.ofList ?_
  show (dropEscapes (a.toList ++ b.toList)).filter _ = a.toList ++ safePoints b.toList
  rw [dropEscapes_append (escape_notMem h), List.filter_append, hkeep]
  rfl

/-- The group in whose colour a level is shown. -/
def Level.group : Level → String
  | .debug => "level_debug"
  | .info => "level_info"
  | .warning => "level_warning"
  | .error => "level_error"
  | .critical => "level_critical"

namespace Highlight

theorem filter_group {l : List (String × Text.Rule)} {group : String} {rule : Text.Rule}
    {cs : List Char} (hl : (l.map (·.1)).Nodup) (h : (group, rule) ∈ l) :
    ((l.flatMap fun (g, r) => (spans r cs).map fun s => (g, s)).filter (·.1 == group)).map (·.2) =
      spans rule cs := by
  induction l with
  | nil => cases h
  | cons e l ih =>
    obtain ⟨g, r⟩ := e
    obtain ⟨hg, hl⟩ := List.nodup_cons.1 hl
    rw [List.flatMap_cons, List.filter_append, List.map_append]
    rcases List.mem_cons.1 h with he | h
    · cases he
      have hrest : (l.flatMap fun (g, r) => (spans r cs).map fun s => (g, s)).filter
          (·.1 == group) = [] := by
        refine List.filter_eq_nil_iff.2 fun x hx he => hg ?_
        obtain ⟨e, hmem, hx⟩ := List.mem_flatMap.1 hx
        obtain ⟨s, -, rfl⟩ := List.mem_map.1 hx
        exact List.mem_map.2 ⟨e, hmem, eq_of_beq he⟩
      rw [hrest, List.map_nil, List.append_nil, List.filter_map, List.map_map]
      simp [Function.comp_def]
    · have hne : (g == group) = false := by
        refine beq_eq_false_iff_ne.2 ?_
        rintro rfl
        exact hg (List.mem_map.2 ⟨_, h, rfl⟩)
      rw [ih hl h, List.filter_map]
      simp [Function.comp_def, hne]

theorem spansOf_eq {group : String} {rule : Text.Rule} (h : (group, rule) ∈ rules)
    (shown : Text → List Char) (line : Text) :
    spansOf shown group line = spans rule (shown line) :=
  filter_group (by decide) h

/-! ### Parts of a header -/

variable {before : Option Char} {date word name rest part cs : List Char} {c : Char}

/-- The characters that a date is written with. -/
def dateChars : List Char := "0123456789abcdef*-T:".toList

theorem digitChar_mem (n : Nat) : Nat.digitChar n ∈ "0123456789abcdef*".toList := by
  rcases Nat.lt_or_ge n 16 with h | h
  · exact (by decide : ∀ n < 16, Nat.digitChar n ∈ "0123456789abcdef*".toList) n h
  · have hstar : Nat.digitChar n = '*' := by
      unfold Nat.digitChar
      repeat rw [if_neg (by omega)]
    rw [hstar]
    decide

theorem mem_dateChars_of_digit (n : Nat) : Nat.digitChar n ∈ dateChars := by
  have h : ∀ c ∈ "0123456789abcdef*".toList, c ∈ dateChars :=
    List.all_iff_forall_prop.1 (by decide)
  exact h _ (digitChar_mem n)

theorem dateChars_solid : ∀ c ∈ dateChars, Text.isBlank c = false ∧ c ≠ 'U' ∧ c ≠ '\n' ∧
    CodePoint.IsHarmless c :=
  List.all_iff_forall_prop.1 (by decide)

theorem group_mem_rules (l : Level) : (l.group, level l.name) ∈ rules := by
  cases l <;> simp [rules, Level.group, Level.name]

theorem loggerName_mem_rules : ("logger_name", loggerName) ∈ rules := by simp [rules]

theorem timestamp_mem_rules : ("timestamp", timestamp) ∈ rules := by simp [rules]

/-! ### The timestamp -/

theorem spansFrom_timestamp (wait place : Nat) (c : Char) (cs : List Char) :
    Text.spansFrom timestamp wait place (some c) cs = [] := by
  induction cs generalizing wait place c with
  | nil => cases wait <;> rfl
  | cons d cs ih => cases wait <;> exact ih ..

theorem afterZone?_append (h : ∀ c ∈ date, c ≠ 'U' ∧ c ≠ '\n') :
    afterZone? (date ++ (" UTC".toList ++ rest)) = some rest := by
  induction date with
  | nil => rfl
  | cons c date ih =>
    obtain ⟨⟨hU, hn⟩, h⟩ := List.forall_mem_cons.1 h
    have hmiss : Text.after? "UTC".toList (c :: (date ++ (" UTC".toList ++ rest))) = none :=
      if_neg hU
    rw [List.cons_append, afterZone?, hmiss]
    dsimp only
    rw [if_neg hn, ih h]

theorem spans_timestamp (h : ∀ c ∈ date, c ∈ dateChars) :
    spans timestamp (date ++ (" UTC".toList ++ rest)) = [⟨0, (date ++ " UTC".toList).length⟩] := by
  have hsolid : ∀ c ∈ date, c ≠ 'U' ∧ c ≠ '\n' := fun c hc =>
    ⟨(dateChars_solid c (h c hc)).2.1, (dateChars_solid c (h c hc)).2.2.1⟩
  have hmatch : timestamp none (date ++ (" UTC".toList ++ rest)) =
      some ⟨(date ++ " UTC".toList).length, 0⟩ := by
    rw [timestamp, afterZone?_append hsolid, Option.map_some, ← List.append_assoc,
      Text.upTo_append]
  obtain ⟨c, cs, he⟩ := List.exists_cons_of_ne_nil (l := date ++ (" UTC".toList ++ rest)) (by simp)
  rw [he] at hmatch ⊢
  rw [spans, Text.spansFrom, hmatch]
  dsimp only
  rw [spansFrom_timestamp, Nat.zero_add, Nat.zero_add]

/-! ### The level -/

theorem wholeWords_of_head?_ne (hw : word ≠ []) (hc : word.head? ≠ some c) :
    Text.Rule.wholeWords [word] before (c :: cs) = none := by
  obtain ⟨d, word, rfl⟩ := List.exists_cons_of_ne_nil hw
  have hmiss : Text.after? (d :: word) (c :: cs) = none :=
    if_neg fun he => hc (congrArg some he.symm)
  simp [Text.Rule.wholeWords, hmiss]

theorem wholeWords_append (hbefore : Text.isWordAt before = false)
    (hrest : Text.isWordAt rest.head? = false) :
    Text.Rule.wholeWords [word] before (word ++ rest) = some ⟨word.length, 0⟩ := by
  have hword : Text.after? word (word ++ rest) = some rest := Text.after?_eq_some_iff.2 rfl
  simp [Text.Rule.wholeWords, hbefore, hword, hrest, Text.upTo_append, Option.filter]

theorem misses_level_date (h : ∀ c ∈ date, c ∈ dateChars) (l : Level) :
    Misses (level l.name) before date rest := by
  have hfirst : ∀ c ∈ dateChars, l.name.toList.head? ≠ some c := by
    cases l <;> exact List.all_iff_forall_prop.1 (by decide)
  have hne : l.name.toList ≠ [] := by cases l <;> decide
  exact Text.misses_of_forall fun c hc _ _ => wholeWords_of_head?_ne hne (hfirst c (h c hc))

theorem misses_level_zone (l : Level) : Misses (level l.name) before " UTC - ".toList rest := by
  cases l <;> simp [Misses, level, Text.Rule.wholeWords, Text.after?, Level.name]

theorem head?_spans_level (h : ∀ c ∈ date, c ∈ dateChars) (l : Level) :
    (spans (level l.name) (date ++ " UTC - ".toList ++ (l.name.toList ++ ' ' :: rest))).head? =
      some ⟨date.length + 7, date.length + 7 + l.name.toList.length⟩ := by
  have hblank : Text.isWordAt (some ' ') = false := by decide
  have hmiss : Misses (level l.name) none (date ++ " UTC - ".toList)
      (l.name.toList ++ ' ' :: rest) :=
    Text.misses_append.2 ⟨misses_level_date h l, misses_level_zone l⟩
  have hmatch : level l.name (date ++ " UTC - ".toList).getLast? (l.name.toList ++ ' ' :: rest) =
      some ⟨l.name.toList.length, 0⟩ := by
    refine wholeWords_append ?_ hblank
    rw [List.getLast?_append]
    exact hblank
  rw [Text.head?_spans hmiss (by simp) hmatch]
  simp

/-! ### The logger's name -/

theorem misses_loggerName (h : ∀ c ∈ part, Text.isBlank c = false)
    (hlast : part.getLast? ≠ some '-') : Misses loggerName before part rest := by
  induction part generalizing before with
  | nil => trivial
  | cons c part ih =>
    obtain ⟨-, hpart⟩ := List.forall_mem_cons.1 h
    cases part with
    | nil =>
      have hc : c ≠ '-' := fun he => hlast (congrArg some he)
      exact ⟨by simp [loggerName, afterLevel?, Text.after?, hc], trivial⟩
    | cons d part =>
      refine ⟨?_, ih hpart (by rwa [List.getLast?_cons_cons] at hlast)⟩
      by_cases hc : c = '-'
      · simp [loggerName, afterLevel?, Text.after?, Text.afterRun?, hc, hpart d]
      · simp [loggerName, afterLevel?, Text.after?, hc]

/-- The characters of a logger's name. -/
def isLoggerChar (c : Char) : Bool :=
  Text.isAsciiLetter c || Text.isAsciiDigit c || c == '_' || c == '.'

theorem of_isLoggerChar (h : isLoggerChar c = true) :
    isNameChar c = true ∧ Text.isBlank c = false ∧ CodePoint.IsHarmless c := by
  have hrange : 0x21 ≤ c.toNat ∧ c.toNat < 0x7F := by
    simp only [isLoggerChar, Text.isAsciiLetter, Text.isAsciiDigit, Bool.or_eq_true,
      Bool.and_eq_true, decide_eq_true_eq, beq_iff_eq, Char.le_def, UInt32.le_iff_toNat_le] at h
    rcases h with ((h | h) | rfl) | rfl
    · simp at h
      have := c.toNat_val
      omega
    · simp at h
      have := c.toNat_val
      omega
    · decide
    · decide
  refine ⟨?_, ?_, ?_⟩
  · have hascii : c.toNat < 0x80 := by omega
    simpa [isNameChar, Text.isWord, hascii, isLoggerChar] using h
  · simp [Text.isBlank]
    omega
  · show (c.toNat < 0x20 → _) ∧ c.toNat ≠ 0x7F
    omega

theorem level_name_solid (l : Level) : l.name.toList ≠ [] ∧ ∀ c ∈ l.name.toList,
    Text.isWord c = true ∧ Text.isBlank c = false ∧ CodePoint.IsHarmless c := by
  cases l <;> exact ⟨by decide, List.all_iff_forall_prop.1 (by decide)⟩

theorem afterRun?_blank {d : Char} (hd : Text.isBlank d = false) :
    Text.afterRun? Text.isBlank (' ' :: d :: cs) = some (d :: cs) :=
  Text.afterRun?_append (a := [' ']) (by simp) (by simp; decide) (by simpa using hd)

theorem afterLevel?_header (hname : name ≠ []) (h : ∀ c ∈ name, Text.isBlank c = false)
    (l : Level) : afterLevel? ("- ".toList ++ (l.name.toList ++ (" - ".toList ++ (name ++ rest)))) =
      some (name ++ rest) := by
  obtain ⟨hne, hl⟩ := level_name_solid l
  obtain ⟨d, word, hword⟩ := List.exists_cons_of_ne_nil hne
  obtain ⟨e, name, rfl⟩ := List.exists_cons_of_ne_nil hname
  have hd : Text.isBlank d = false := (hl d (by simp [hword])).2.1
  have he : Text.isBlank e = false := h e List.mem_cons_self
  have hrun : Text.afterRun? Text.isWord (d :: (word ++ ' ' :: '-' :: ' ' :: e :: (name ++ rest))) =
      some (' ' :: '-' :: ' ' :: e :: (name ++ rest)) := by
    rw [← List.cons_append, ← hword]
    exact Text.afterRun?_append hne (fun c hc => (hl c hc).1) (by simp; decide)
  have hdash : Text.isBlank '-' = false := by decide
  simp [afterLevel?, Text.after?, hword, afterRun?_blank, hd, he, hdash, hrun]

/-- Behind the date the rule finds the logger's name between the level and the message. -/
theorem loggerName_header (hname : name ≠ []) (h : ∀ c ∈ name, isLoggerChar c = true) (l : Level) :
    loggerName before ("- ".toList ++ (l.name.toList ++ (" - ".toList ++
        (name ++ (" - ".toList ++ rest))))) =
      some ⟨5 + l.name.toList.length + name.length, 5 + l.name.toList.length⟩ := by
  have hsolid : ∀ c ∈ name, Text.isBlank c = false := fun c hc => (of_isLoggerChar (h c hc)).2.1
  have hrun : Text.afterRun? isNameChar (name ++ (" - ".toList ++ rest)) =
      some (" - ".toList ++ rest) :=
    Text.afterRun?_append hname (fun c hc => (of_isLoggerChar (h c hc)).1) (by simp; decide)
  have hdash : startsWithDash (" - ".toList ++ rest) = true := rfl
  simp only [loggerName, afterLevel?_header hname hsolid, hrun, hdash, Option.bind_eq_bind,
    Option.bind_some, if_true, Option.some.injEq, Text.Match.mk.injEq, List.length_append]
  simp
  omega

theorem head?_spans_loggerName (hdate : ∀ c ∈ date, c ∈ dateChars)
    (hlast : date.getLast? ≠ some '-') (hname : name ≠ [])
    (h : ∀ c ∈ name, isLoggerChar c = true) (l : Level) (rest : List Char) :
    (spans loggerName (date ++ " UTC ".toList ++ ("- ".toList ++ (l.name.toList ++ (" - ".toList ++
        (name ++ (" - ".toList ++ rest))))))).head? =
      some ⟨date.length + 10 + l.name.toList.length,
        date.length + 10 + l.name.toList.length + name.length⟩ := by
  have hmiss : ∀ rest, Misses loggerName none (date ++ " UTC ".toList) rest := fun rest => by
    refine Text.misses_append.2 ⟨misses_loggerName (fun c hc => ?_) hlast, ?_⟩
    · exact (dateChars_solid c (hdate c hc)).1
    · refine Text.misses_of_forall fun c hc _ _ => ?_
      have hne : c ≠ '-' := by
        revert c
        exact List.all_iff_forall_prop.1 (by decide)
      simp [loggerName, afterLevel?, Text.after?, hne]
  rw [Text.head?_spans (hmiss _) (by simp) (loggerName_header hname h l)]
  simp
  omega

/-! ### Lines -/

theorem mem_dateChars_twoDigits {n : Nat} (h : c ∈ Moment.twoDigits n) : c ∈ dateChars := by
  simp only [Moment.twoDigits, List.mem_cons, List.not_mem_nil, or_false] at h
  rcases h with rfl | rfl <;> exact mem_dateChars_of_digit _

theorem mem_dateChars_repr {n : Nat} (h : c ∈ (Nat.repr n).toList) : c ∈ dateChars := by
  rw [Nat.toList_repr] at h
  have hdigit := Nat.isDigit_of_mem_toDigits (by decide) (by decide) h
  simp only [Char.isDigit, Bool.and_eq_true, decide_eq_true_eq, ge_iff_le,
    UInt32.le_iff_toNat_le] at hdigit
  rw [← Char.ofNat_toNat c]
  exact (by decide : ∀ n < 58, 48 ≤ n → Char.ofNat n ∈ dateChars) c.toNat
    (Nat.lt_succ_of_le hdigit.2) hdigit.1

theorem mem_dateChars_year {n : Int} (h : c ∈ (toString n).toList) : c ∈ dateChars := by
  cases n with
  | ofNat n => exact mem_dateChars_repr h
  | negSucc n =>
    have h : c ∈ ("-" ++ Nat.repr (n + 1)).toList := h
    rw [String.toList_append] at h
    rcases List.mem_append.1 h with h | h
    · rw [List.mem_singleton.1 h]
      decide
    · exact mem_dateChars_repr h

theorem mem_dateChars_of_date {m : Moment} (h : c ∈ m.text.toList) : c ∈ dateChars := by
  have hmarks : '-' ∈ dateChars ∧ 'T' ∈ dateChars ∧ ':' ∈ dateChars := by decide
  simp only [Moment.text, String.toList_append, String.toList_ofList, List.mem_append,
    List.mem_cons] at h
  rcases h with h | h
  · exact mem_dateChars_year h
  · grind [mem_dateChars_twoDigits]

theorem date_getLast? (m : Moment) : m.text.toList.getLast? ≠ some '-' := by
  have hdigit : ∀ c ∈ "0123456789abcdef*".toList, c ≠ '-' :=
    List.all_iff_forall_prop.1 (by decide)
  have hlast : m.text.toList.getLast? = some (Nat.digitChar (m.second % 10)) := by
    simp [Moment.text, Moment.twoDigits]
  rw [hlast]
  exact fun he => hdigit _ (digitChar_mem _) (Option.some.inj he)

theorem isHarmless_ofString {s : String} (h : ∀ c ∈ s.toList, CodePoint.IsHarmless c) :
    ∀ p ∈ (s : Text).toList, p.IsHarmless := by
  intro p hp
  obtain ⟨c, hc, rfl⟩ := List.mem_map.1 hp
  exact h c hc

theorem exists_char_of_is {p : CodePoint} {cls : Char → Bool} (h : p.is cls = true) :
    ∃ c, p = .char c ∧ cls c = true := by
  cases p with
  | char c => exact ⟨c, rfl, h⟩
  | surrogate i => cases h

theorem isLoggerChar_of_mem_masked {t : Text} (h : ∀ p ∈ t.toList, p.is isLoggerChar = true)
    (hc : c ∈ t.masked) : isLoggerChar c = true := by
  obtain ⟨p, hp, rfl⟩ := List.mem_map.1 hc
  obtain ⟨c, rfl, hcls⟩ := exists_char_of_is (h p hp)
  exact hcls

theorem header_isHarmless {r : Record} {m : Moment}
    (h : ∀ p ∈ r.logger.toList, p.is isLoggerChar = true) :
    ∀ p ∈ (r.header m).toList, p.IsHarmless := by
  have hzone : ∀ c ∈ " UTC - ".toList, CodePoint.IsHarmless c :=
    List.all_iff_forall_prop.1 (by decide)
  have hdash : ∀ c ∈ " - ".toList, CodePoint.IsHarmless c :=
    List.all_iff_forall_prop.1 (by decide)
  simp only [Record.header, Text.toList_append, List.forall_mem_append]
  refine ⟨⟨⟨⟨⟨?_, ?_⟩, ?_⟩, ?_⟩, ?_⟩, ?_⟩
  · exact isHarmless_ofString fun c hc => (dateChars_solid c (mem_dateChars_of_date hc)).2.2.2
  · exact isHarmless_ofString hzone
  · exact isHarmless_ofString fun c hc => ((level_name_solid r.level).2 c hc).2.2
  · exact isHarmless_ofString hdash
  · intro p hp
    obtain ⟨c, rfl, hc⟩ := exists_char_of_is (h p hp)
    exact (of_isLoggerChar hc).2.2
  · exact isHarmless_ofString hdash

theorem header_eq (r : Record) (m : Moment) : r.header m =
    m.text ++ " UTC" ++ " - " ++ r.level.name ++ " - " ++ r.logger ++ " - " := by
  have hzone : (m.text : Text) ++ " UTC - " = m.text ++ " UTC" ++ " - " :=
    congrArg Text.ofList (List.append_assoc (m.text : Text).toList (" UTC" : Text).toList
      (" - " : Text).toList).symm
  rw [Record.header, hzone]

theorem line_eq [Host] {r : Record} {message : Text} {m : Moment}
    (hmessage : r.message = .ok message) (hmoment : Moment.ofSeconds r.created = .ok m)
    (h : ∀ p ∈ r.logger.toList, p.is isLoggerChar = true) :
    r.line = .ok (r.header m ++ sanitize message) := by
  rw [Record.line, hmessage, hmoment, ← sanitize_append (header_isHarmless h)]
  rfl

theorem shown_line {shown : Text → List Char}
    (hshown : ∀ line : Text, (∀ p ∈ line.toList, p.IsHarmless) → shown line = line.masked)
    {r : Record} {m : Moment} (h : ∀ p ∈ r.logger.toList, p.is isLoggerChar = true)
    (message : Text) : shown (r.header m ++ sanitize message) =
      m.text.toList ++ (" UTC - ".toList ++ (r.level.name.toList ++ (" - ".toList ++
        (r.logger.masked ++ (" - ".toList ++ (sanitize message).masked))))) := by
  have hsafe : ∀ p ∈ (r.header m ++ sanitize message).toList, p.IsHarmless :=
    List.forall_mem_append.2 ⟨header_isHarmless h, fun _ => isHarmless_of_mem_safePoints⟩
  rw [hshown _ hsafe]
  simp [Record.header, Text.ofString]

end Highlight

open Highlight

/-- In the line of a record, whatever its message, the date with its zone is the only timestamp,
the level is the first part in the colour of levels of its kind, and the logger's name is the first
name of a logger. -/
theorem spansOf_header [Host] {shown : Text → List Char}
    (hshown : ∀ line : Text, (∀ p ∈ line.toList, p.IsHarmless) → shown line = line.masked)
    (r : Record) (message : Text) (m : Moment)
    (hmessage : r.message = .ok message) (hmoment : Moment.ofSeconds r.created = .ok m)
    (hname : r.logger ≠ "") (hchars : ∀ p ∈ r.logger.toList, p.is isLoggerChar = true) :
    let date : Text := m.text ++ " UTC"
    ∃ line, r.line = .ok line ∧
      line = date ++ " - " ++ r.level.name ++ " - " ++ r.logger ++ " - " ++ sanitize message ∧
      spansOf shown "timestamp" line = [.behind "" date] ∧
      (spansOf shown r.level.group line).head? = some (.behind (date ++ " - ") r.level.name) ∧
      (spansOf shown "logger_name" line).head? =
        some (.behind (date ++ " - " ++ r.level.name ++ " - ") r.logger) := by
  have hdate : ∀ c ∈ m.text.toList, c ∈ dateChars := fun c => mem_dateChars_of_date
  have hne : r.logger.masked ≠ [] := fun he =>
    hname (congrArg Text.ofList (List.map_eq_nil_iff.1 he))
  refine ⟨_, line_eq hmessage hmoment hchars, ?_, ?_, ?_, ?_⟩
  · exact congrArg (· ++ sanitize message) (header_eq r m)
  · rw [spansOf_eq timestamp_mem_rules, shown_line hshown hchars]
    refine (spans_timestamp hdate).trans ?_
    simp [Span.behind, Text.length, Text.ofString, Text.ofChars]
  · rw [spansOf_eq (group_mem_rules r.level), shown_line hshown hchars, ← List.append_assoc]
    refine (head?_spans_level hdate r.level).trans ?_
    simp [Span.behind, Text.length, Text.ofString, Text.ofChars]
  · have hlogger : ∀ c ∈ r.logger.masked, isLoggerChar c = true := fun _ =>
      isLoggerChar_of_mem_masked hchars
    have hfound := head?_spans_loggerName hdate (date_getLast? m) hne hlogger r.level
      (sanitize message).masked
    rw [List.append_assoc] at hfound
    rw [spansOf_eq loggerName_mem_rules, shown_line hshown hchars]
    refine hfound.trans ?_
    simp [Span.behind, Text.length, Text.ofString, Text.ofChars]
    omega

/-- A message that looks like a header itself. -/
def Record.posing : Record :=
  ⟨.warning, "qvote.governance.voting", 1700000000,
    "1970-01-01T00:00:00 UTC - WARNING - qvote.governance - done\n2 UTC", []⟩

/-- The terminal shows all but the characters that ring its bell or move its cursor. -/
theorem spansOf_header_posing :
    let shown (line : Text) : List Char :=
      line.masked.filter fun c => c.toNat ∉ [7, 8, 11, 12, 13]
    (∀ line : Text, (∀ p ∈ line.toList, p.IsHarmless) → shown line = line.masked) ∧
      Record.posing.message = .ok Record.posing.template ∧
      Moment.ofSeconds Record.posing.created = .ok ⟨2023, 11, 14, 22, 13, 20⟩ ∧
      ∃ line, Record.posing.line = .ok line ∧ spansOf shown "timestamp" line = [⟨0, 23⟩] ∧
        (spansOf shown "level_warning" line).head? = some ⟨26, 33⟩ ∧
        (spansOf shown "logger_name" line).head? = some ⟨36, 59⟩ := by
  intro shown
  have hshown : ∀ line : Text, (∀ p ∈ line.toList, p.IsHarmless) → shown line = line.masked := by
    refine fun line h => List.filter_eq_self.2 fun c hc => ?_
    obtain ⟨p, hp, rfl⟩ := List.mem_map.1 hc
    cases p with
    | surrogate i => rfl
    | char c =>
      have hsafe : (c.toNat < 0x20 → c.toNat = 0x09 ∨ c.toNat = 0x0A) ∧ c.toNat ≠ 0x7F := h _ hp
      have hkept : c.toNat ∉ [7, 8, 11, 12, 13] := by
        simp only [List.mem_cons, List.not_mem_nil, or_false]
        omega
      exact decide_eq_true hkept
  have hmoment : Moment.ofSeconds Record.posing.created = .ok ⟨2023, 11, 14, 22, 13, 20⟩ := by
    decide +kernel
  obtain ⟨line, hline, -, htime, hlevel, hlogger⟩ :=
    spansOf_header hshown Record.posing _ _ rfl hmoment (by decide +kernel) (by decide +kernel)
  exact ⟨hshown, rfl, hmoment, line, hline, htime, hlevel, hlogger⟩

end Log

end QuadraticVoting
