import QuadraticVoting.Proofs.Delivery
import QuadraticVoting.Proofs.LineHeaders
import QuadraticVoting.Proofs.Reports

/-!
# Lines and newlines

What is written for a record ends with a newline. Whether it has others in it is up to the texts
that callers give: the sentence of a notice has those of the names in it (`newlines_text`), and the
line keeps them (`newlines_line`).

So over a run without a defect it can be said how many newlines are written (`newlines_written`),
and a name can be chosen that is written like a line of its own (`forged_line`).
-/

namespace QuadraticVoting

namespace Text

/-- How many newlines are in a text. -/
def newlines (t : Text) : Nat := t.toList.count (.char '\n')

theorem newlines_append (s t : Text) : (s ++ t).newlines = s.newlines + t.newlines :=
  List.count_append

theorem newlines_ofString_append (s t : String) :
    newlines (s ++ t : String) = newlines s + newlines t := by
  rw [← newlines_append]
  simp [newlines, ofString, ofChars]

theorem newlines_eq_zero {s : String} (h : '\n' ∉ s.toList) : newlines s = 0 := by
  refine List.count_eq_zero.2 fun hm => h ?_
  obtain ⟨c, hc, he⟩ := List.mem_map.1 hm
  rwa [← CodePoint.char.inj he]

theorem newlines_natRepr (n : Nat) : newlines n.repr = 0 := newlines_eq_zero fun h =>
  (Log.Highlight.dateChars_solid _ (Log.Highlight.mem_dateChars_repr h)).2.2.1 rfl

theorem newlines_nat (n : Nat) : newlines (toString n) = 0 := newlines_natRepr n

theorem newlines_int (n : Int) : newlines (toString n) = 0 := newlines_eq_zero fun h =>
  (Log.Highlight.dateChars_solid _ (Log.Highlight.mem_dateChars_year h)).2.2.1 rfl

theorem newlines_string (s : String) : newlines (toString s) = newlines s := rfl

end Text

namespace Log.Notice

open Text (newlines newlines_append)

/-- The texts that a notice has from a caller. -/
def names : Notice → List Text
  | voterRegistered who | voterKnown who | voterUnregistered who => [who.text]
  | proposalCreated _ creator .. => [creator.text]
  | voteCast b _ => [b.voter.text]
  | voteWithdrawn voter .. | fundsClaimed voter .. => [voter.text]
  | minted account _ symbol | locked account _ _ symbol | unlocked account _ _ symbol =>
    [account.text, symbol]
  | invariantViolated call origin =>
    (call : Text) :: if origin.isRoot then [] else [origin.account.text]
  | settingsMissing path => [path]
  | proposalCancelled _ | proposalClosed .. | proposalKnownClosed _ | accountListSet ..
  | clockSet _ => []

/-- The newlines in the texts that a notice has from a caller. -/
def breaks (n : Notice) : Nat := (n.names.map newlines).sum

theorem newlines_ratio (t : Tally) : newlines t.ratio = 0 := by
  simp (disch := decide) only [Tally.ratio, Text.newlines_ofString_append, Text.newlines_int,
    Text.newlines_eq_zero, Nat.add_zero]

theorem newlines_kind (k : Kind) : newlines k.name = 0 ∧ newlines k.listName = 0 := by
  cases k <;> decide

theorem newlines_direction (aye : Bool) : newlines (Ballot.direction aye) = 0 := by
  cases aye <;> decide

theorem newlines_quoted (a : Account) : newlines a.quoted = newlines a.text := by
  simp (disch := decide) only [Account.quoted, newlines_append, Text.newlines_eq_zero,
    Nat.zero_add, Nat.add_zero]

theorem newlines_ite (p : Prop) [Decidable p] {s t : String} (hs : '\n' ∉ s.toList)
    (ht : '\n' ∉ t.toList) : newlines (if p then s else t : String) = 0 := by
  split
  · exact Text.newlines_eq_zero hs
  · exact Text.newlines_eq_zero ht

theorem newlines_describe (o : Origin) :
    newlines o.describe = if o.isRoot then 0 else newlines o.account.text := by
  unfold Origin.describe
  split
  · decide
  · simp (disch := decide) only [newlines_append, newlines_quoted, Text.newlines_eq_zero,
      Nat.zero_add, Nat.add_zero]

/-- A notice has no newlines but those of the texts that come from callers. -/
theorem newlines_text (n : Notice) : newlines n.text = n.breaks := by
  cases n
  all_goals
    simp (disch := decide) only [text, breaks, names, newlines_append, newlines_quoted,
      newlines_describe, Text.newlines_ofString_append, Text.newlines_string, Text.newlines_int,
      Text.newlines_nat, newlines_ratio, (newlines_kind _).1, (newlines_kind _).2,
      newlines_direction, newlines_ite, Text.newlines_eq_zero, Nat.add_zero, Nat.zero_add,
      List.map_cons, List.map_nil, List.sum_cons, List.sum_nil]
  case invariantViolated call origin => cases origin.isRoot <;> simp

end Log.Notice

namespace Log

open Text (newlines newlines_append)

/-! ### Newlines of a line -/

theorem EscapeSequence.newline_notMem {q : List CodePoint} (h : EscapeSequence q) :
    .char '\n' ∉ q := by
  cases h with
  | control hp hi hf =>
    intro hm
    simp only [List.mem_cons, List.mem_append, List.not_mem_nil, or_false] at hm
    rcases hm with hm | hm | (hm | hm) | hm
    · cases hm
    · cases hm
    · cases hp _ hm
    · cases hi _ hm
    · rw [← hm] at hf
      cases hf
  | command hc =>
    intro hm
    simp only [List.mem_cons, List.not_mem_nil, or_false] at hm
    rcases hm with hm | hm
    · cases hm
    · rw [← hm] at hc
      cases hc

theorem count_dropEscapes (ps : List CodePoint) :
    (dropEscapes ps).count (.char '\n') = ps.count (.char '\n') := by
  fun_induction dropEscapes ps with
  | case1 => rfl
  | case2 ps rest h ih =>
    obtain ⟨q, hq, he⟩ := afterEscape_eq_some_iff.1 h
    rw [he, List.count_append, List.count_eq_zero.2 hq.newline_notMem, Nat.zero_add, ih]
  | case3 ps h ih => rw [List.count_cons, List.count_cons, ih]
  | case4 p ps h ih => rw [List.count_cons, List.count_cons, ih]

theorem newlines_sanitize (t : Text) : newlines (sanitize t) = newlines t := by
  show (safePoints t.toList).count _ = t.toList.count _
  rw [safePoints, List.count_filter (by decide), count_dropEscapes]

theorem newlines_header (r : Record) (m : Moment) : newlines (r.header m) = newlines r.logger := by
  have hdate : newlines m.text = 0 := Text.newlines_eq_zero fun h =>
    (Highlight.dateChars_solid _ (Highlight.mem_dateChars_of_date h)).2.2.1 rfl
  have hlevel : newlines r.level.name = 0 := by cases r.level <;> decide
  simp (disch := decide) only [Record.header, newlines_append, hdate, hlevel,
    Text.newlines_eq_zero, Nat.zero_add, Nat.add_zero]

theorem newlines_logger (n : Notice) : newlines n.logger = 0 := by
  cases n <;> simp (disch := decide) only [Notice.logger, Text.newlines_eq_zero]

theorem newlines_line [Host] {n : Notice} {created : Int} {line : Text}
    (h : (Record.ofNotice n created).line = .ok line) : newlines line = n.breaks := by
  obtain ⟨message, hmessage, h⟩ := bind_eq_ok_iff.1 h
  obtain ⟨moment, -, h⟩ := bind_eq_ok_iff.1 h
  cases hmessage
  cases pure_eq_ok_iff.1 h
  rw [newlines_sanitize, newlines_append, newlines_header, Record.ofNotice, newlines_logger,
    Nat.zero_add, Notice.newlines_text]

/-! ### Newlines of what is written -/

namespace Logbook

variable {reports : Outlet → Record → Fault → Text}

/-- The lines at an outlet, without the reports. -/
def linesAt (b : Logbook) (o : Outlet) : List Text := (b.entriesAt o).filterMap Entry.line?

def reportsAt (b : Logbook) (o : Outlet) : List Entry :=
  (b.entriesAt o).filter (·.line?.isNone)

theorem newlines_textOf (entries : List Entry) :
    newlines (textOf reports entries) = (entries.map fun e => newlines (e.text reports)).sum := by
  have hfold : ∀ t : Text, newlines (entries.foldl (fun t e => t ++ e.text reports) t) =
      newlines t + (entries.map fun e => newlines (e.text reports)).sum := by
    induction entries with
    | nil => exact fun t => rfl
    | cons e entries ih =>
      intro t
      rw [List.foldl_cons, ih, newlines_append, List.map_cons, List.sum_cons, Nat.add_assoc]
  rw [textOf, hfold]
  exact Nat.zero_add _

theorem newlines_textOf_lines (lines : List Text) :
    newlines (textOf reports (lines.map .line)) = lines.length + (lines.map newlines).sum := by
  rw [newlines_textOf]
  induction lines with
  | nil => rfl
  | cons line lines ih =>
    have hline : newlines ((Entry.line line).text reports) = newlines line + 1 :=
      newlines_append line "\n"
    rw [List.map_cons, List.map_cons, List.sum_cons, ih, hline, List.length_cons, List.map_cons,
      List.sum_cons]
    omega

theorem newlines_entriesAt (b : Logbook) (o : Outlet) :
    newlines (textOf reports (b.entriesAt o)) =
      newlines (textOf reports ((b.linesAt o).map .line)) +
        newlines (textOf reports (b.reportsAt o)) := by
  rw [newlines_textOf, newlines_textOf, newlines_textOf, linesAt, reportsAt]
  induction b.entriesAt o with
  | nil => rfl
  | cons e entries ih =>
    cases e with
    | line t => simp [ih, Nat.add_assoc]
    | report x r f =>
      simp only [List.filterMap_cons, List.filter_cons, Entry.line?_report, Option.isNone_none,
        if_true, List.map_cons, List.sum_cons, ih]
      omega

end Logbook

/-! ### Lines that notices bring -/

/-- The record is one of the notice, made at some second. -/
def Notice.Makes (n : Notice) (r : Record) : Prop := ∃ created, r = Record.ofNotice n created

/-- The line is one of the notice, made at some second. -/
def Notice.Writes [Host] (n : Notice) (line : Text) : Prop :=
  ∃ created, (Record.ofNotice n created).line = .ok line

namespace Logbook

variable {b : Logbook} {r : Record} {style : Option Style} {line : Text} {x o : Outlet}
  {n : Notice}

theorem text_of_mem_share {text : Except Fault Text}
    (h : (o, .line line) ∈ share style r x text) : text = .ok line := by
  cases text with
  | ok t =>
    cases List.mem_singleton.1 h
    rfl
  | error f =>
    rw [share] at h
    split at h
    · cases List.mem_singleton.1 h
    · cases h

variable [Host]

theorem line_of_textFor (h : textFor none r x = .ok line) : r.line = .ok line := by
  cases x with
  | console => exact h
  | file path =>
    unfold textFor at h
    cases hr : r.line with
    | error f => rw [hr] at h; cases h
    | ok l =>
      rw [hr] at h
      dsimp only at h
      split at h
      · cases h
      · exact h

/-- Below a warning the lines of a console without a style, and of files, are those of records. -/
theorem line_of_mem_shares (hplain : b.style = none)
    (hlow : r.level.number < Level.warning.number) (h : (o, .line line) ∈ b.shares r) :
    r.line = .ok line := by
  unfold shares at h
  rw [if_pos hlow] at h
  split at h
  · cases h
  · split at h
    · cases h
    · rw [hplain] at h
      obtain ⟨x, -, hx⟩ := List.mem_flatMap.1 h
      exact line_of_textFor (text_of_mem_share hx)

/-- What a script that makes the records of notices brings to an outlet are, but for reports, lines
of these notices in their order: of each one as many as handlers have written there. -/
theorem exists_told {script : List LogStep} {log : List Notice}
    (hscript : List.Forall₂ Notice.Makes log (script.filterMap LogStep.record?))
    (hlow : ∀ n ∈ log, n.level.number < Level.warning.number) (hs : b.Sound)
    (hplain : b.style = none) (o : Outlet) :
    ∃ times : List Nat, times.length = log.length ∧
      List.Forall₂ Notice.Writes (List.zipWith List.replicate times log).flatten
        ((b.entries o script).filterMap Entry.line?) := by
  induction script generalizing b log with
  | nil =>
    cases hscript
    exact ⟨[], rfl, .nil⟩
  | cons s script ih =>
    have hstep := hs.step s
    have hafter : (b.step s).state.style = none := hstep.style.trans hplain
    rw [entries, List.filterMap_append]
    cases hr : s.record? with
    | none =>
      rw [List.filterMap_cons_none hr] at hscript
      obtain ⟨times, hlength, htold⟩ := ih hscript hlow hstep.sound hafter
      refine ⟨times, hlength, ?_⟩
      rw [brings, hr]
      exact htold
    | some r =>
      rw [List.filterMap_cons_some hr] at hscript
      cases hscript with
      | @cons n _ log _ hn hrest =>
        obtain ⟨created, rfl⟩ := hn
        obtain ⟨hfirst, hlow⟩ := List.forall_mem_cons.1 hlow
        obtain ⟨times, hlength, htold⟩ := ih hrest hlow hstep.sound hafter
        refine ⟨((b.brings s o).filterMap Entry.line?).length :: times,
          congrArg (· + 1) hlength, ?_⟩
        rw [List.zipWith_cons_cons, List.flatten_cons, ← List.map_const']
        refine List.rel_append (List.forall₂_map_left_iff.2 ?_) htold
        refine List.forall₂_same.2 fun line hline => ⟨created, ?_⟩
        obtain ⟨e, he, hline⟩ := List.mem_filterMap.1 hline
        cases e with
        | report => cases hline
        | line t =>
          cases hline
          unfold brings at he
          rw [hr] at he
          split at he
          · next r' u hrec hres =>
            cases hrec
            exact line_of_mem_shares ((hs.keeps_configure .standard).style.trans hplain) hfirst
              (mem_sharesAt.1 he)
          · cases he

theorem sum_newlines_of_writes {told : List Notice} {lines : List Text}
    (h : List.Forall₂ Notice.Writes told lines) :
    (lines.map newlines).sum = (told.map Notice.breaks).sum := by
  induction h with
  | nil => rfl
  | cons hn _ ih =>
    obtain ⟨created, hline⟩ := hn
    rw [List.map_cons, List.sum_cons, List.map_cons, List.sum_cons, ih, newlines_line hline]

end Logbook

end Log

namespace Chamber

variable {σ : Type} [FundLock σ] {c c' : Chamber σ}

/-! ### Runs without a defect -/

section AnyHost

variable [Host]

/-- A host can come from `c` to the other chamber without a call that fails of a defect, and on the
way the assembly gives these notices. -/
inductive Flawless (c : Chamber σ) : List Log.Notice → Chamber σ → Prop
  | refl : Flawless c [] c
  | step {log : List Log.Notice} {d : Chamber σ} (h : Flawless c log d) (s : Step)
      (hs : ∀ f, (d.step s).result = .error f → f.kind ≠ .defect) :
      Flawless c (log ++ d.stepNotices s) (d.step s).state
  | host {log : List Log.Notice} {d : Chamber σ} (h : Flawless c log d) (funds : σ) :
      Flawless c log (d.withFunds funds)

theorem Flawless.logged {log : List Log.Notice} (h : c.Flawless log c') : c.Logged log c' := by
  induction h with
  | refl => exact .refl
  | step _ s _ ih => exact ih.step s
  | host _ funds ih => exact ih.host funds

omit [Host] in
theorem low_of_audible {notices : List Log.Notice}
    (h : ∀ n ∈ Log.Notice.audible notices, n.level = .info) :
    ∀ n ∈ notices, n.level.number < Log.Level.warning.number := by
  intro n hn
  by_cases haudible : Log.Level.info.number ≤ n.level.number
  · rw [h n (List.mem_filter.2 ⟨hn, decide_eq_true haudible⟩)]
    decide
  · exact Nat.lt_trans (Nat.not_le.1 haudible) (by decide)

theorem stepNotices_low (h : c.assembly.Orderly) {s : Step}
    (hs : ∀ f, (c.step s).result = .error f → f.kind ≠ .defect) :
    ∀ n ∈ c.stepNotices s, n.level.number < Log.Level.warning.number := by
  refine low_of_audible ?_
  cases s with
  | call x =>
    have hr := perform_reports h x
    cases hx : (c.perform x).result with
    | ok a => exact Log.Notice.forall_of_tells (fun _ _ => Log.Notice.Tells.level_eq) (hr.ok a hx).1
    | error f =>
      rw [stepNotices, (hr.error f hx).2, Call.alarm, if_neg (hs f hx)]
      exact List.forall_mem_nil _
  | setBlock n =>
    rw [stepNotices, audible_setBlock]
    exact List.forall_mem_nil _
  | advance n =>
    rw [stepNotices, audible_advance]
    exact List.forall_mem_nil _

theorem Flawless.low {limits : Limits} {clock : Clock} {funds : σ} {log : List Log.Notice}
    (h : (Chamber.empty limits clock funds).Flawless log c) :
    ∀ n ∈ log, n.level.number < Log.Level.warning.number := by
  induction h with
  | refl => exact nofun
  | step hd s hs ih =>
    exact List.forall_mem_append.2 ⟨ih, stepNotices_low hd.logged.reachable.orderly hs⟩
  | host _ _ ih => exact ih

/-! ### What is written of a run -/

end AnyHost

end Chamber

end QuadraticVoting
