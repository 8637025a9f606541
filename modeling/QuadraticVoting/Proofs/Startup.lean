import Mathlib.Control.Monad.Basic
import QuadraticVoting.Assembly.State
import QuadraticVoting.Log.Logbook
import QuadraticVoting.Proofs.Admission
import QuadraticVoting.Settings.Load

/-!
# Starting from a settings file

A host loads a file, sets up the log as the settings say, and opens a chamber under their limits
(`Settings.launch`). What is wrong with a file or a variable should be told as a fault of kind
`configuration`; a check of which a fault of another kind comes lets it escape (`Escapes`). A chain
of checks lets escape what its links do (`Escapes.bind_iff`), so each check is looked at once, in
the order in which the settings pass through them.

What escapes is listed by `Settings.Unreported`: the reader gives up on bytes, digits or depth, a
section is no table, a level or a limit cannot be written, or the log file is no text. There is
nothing else (`launch_unreported_iff`).
-/

namespace QuadraticVoting

/-- A check fails, and not with a fault of the configuration. -/
structure Escapes {α : Type} (x : Except Fault α) (f : Fault) : Prop where
  eq_error : x = .error f
  kind_ne : f.kind ≠ .configuration

namespace Escapes

variable {α β : Type} {f g : Fault}

theorem not_ok (a : α) : ¬ Escapes (.ok a) f := fun h => nomatch h.eq_error

theorem error_iff (hg : g.kind ≠ .configuration) :
    Escapes (.error g : Except Fault α) f ↔ f = g := by
  constructor
  · exact fun h => (Except.error.inj h.eq_error).symm
  · rintro rfl
    exact ⟨rfl, hg⟩

theorem not_error (hg : g.kind = .configuration) : ¬ Escapes (.error g : Except Fault α) f := by
  rintro ⟨h, hf⟩
  cases h
  exact hf hg

theorem bind_iff {x : Except Fault α} {k : α → Except Fault β} :
    Escapes (x >>= k) f ↔ Escapes x f ∨ ∃ a, x = .ok a ∧ Escapes (k a) f := by
  cases x with
  | ok a =>
    constructor
    · exact fun h => .inr ⟨a, rfl, h⟩
    · rintro (h | ⟨b, hb, h⟩)
      · exact absurd h (not_ok a)
      · cases hb
        exact h
  | error g =>
    constructor
    · exact fun h => .inl ⟨congrArg _ (Except.error.inj h.eq_error), h.kind_ne⟩
    · rintro (h | ⟨b, hb, -⟩)
      · exact ⟨congrArg _ (Except.error.inj h.eq_error), h.kind_ne⟩
      · cases hb

end Escapes

/-- A check whose faults can all be told as they are. -/
structure ToldAsIs [Host] {α : Type} (x : Except Fault α) : Prop where
  told_eq : ∀ {f : Fault}, x = .error f → f.told = f

namespace ToldAsIs

variable [Host] {α β : Type}

theorem ok (a : α) : ToldAsIs (.ok a) := ⟨nofun⟩

theorem error {f : Fault} (h : f.told = f) : ToldAsIs (.error f : Except Fault α) where
  told_eq hf := by
    cases hf
    exact h

theorem bind {x : Except Fault α} {k : α → Except Fault β} (hx : ToldAsIs x)
    (hk : ∀ a, ToldAsIs (k a)) : ToldAsIs (x >>= k) := by
  cases x with
  | ok a => exact hk a
  | error f => exact error (hx.told_eq rfl)

theorem result_check {S : Type} {x : Except Fault α} (hx : ToldAsIs x) (s : S)
    (k : α → Reply S β) : (Reply.check s x k).result = x >>= fun a => (k a).result := by
  cases x with
  | ok a => rfl
  | error f => exact congrArg _ (hx.told_eq rfl)

end ToldAsIs

theorem Reply.result_andThen {S α β : Type} (r : Reply S α) (k : S → α → Reply S β) :
    (r.andThen k).result = r.result >>= fun a => (k r.state a).result := by
  cases h : r.result with
  | ok a => rw [andThen_of_ok h]; rfl
  | error f => rw [andThen_of_error h]; rfl

/-! ### Limits and log settings -/

namespace RawLimits

/-- Limits that are natural numbers, in the order in which they are checked. -/
def ofNats (payload accounts maximum minimum delay : Nat) : RawLimits :=
  ⟨.int payload, .int accounts, .int maximum, .int minimum, .int delay⟩

theorem escapes_natural {name : String} {v : Value} {f : Fault} : ¬ Escapes (natural name v) f := by
  unfold natural
  split
  · split
    · exact Escapes.not_error rfl
    · exact Escapes.not_ok _
  · exact Escapes.not_error rfl

variable [Host]

theorem toldAsIs_natural (name : String) (v : Value) : ToldAsIs (natural name v) := by
  unfold natural
  split
  · split
    · exact .error rfl
    · exact .ok _
  · exact .error rfl

theorem toldAsIs_validate (l : RawLimits) : ToldAsIs l.validate := by
  unfold validate
  refine .bind (toldAsIs_natural ..) fun payload => .bind (toldAsIs_natural ..) fun accounts =>
    .bind (toldAsIs_natural ..) fun maximum => .bind (toldAsIs_natural ..) fun minimum =>
      .bind (toldAsIs_natural ..) fun delay => ?_
  split
  · split
    · exact .ok _
    · exact .error (Fault.told_told _)
  · exact .error rfl

theorem told_minimumAboveMaximum (minimum maximum : Int) :
    (Fault.minimumAboveMaximum minimum maximum).told =
      if Value.isWritable minimum ∧ Value.isWritable maximum then
        .minimumAboveMaximum minimum maximum
      else .excess .integer := by
  have hint : ∀ n : Int, (Value.int n).excess? =
      if Value.isWritable n then none else some .integer := fun n => rfl
  simp only [Fault.told, Fault.named, List.findSome?_cons, List.findSome?_nil, hint]
  cases Value.isWritable minimum <;> cases Value.isWritable maximum <;> rfl

omit [Host] in
/-- Of two limits that are the wrong way round, the larger one is the harder one to write. -/
theorem isWritable_of_lt {maximum minimum : Nat} (h : maximum < minimum)
    (hw : Value.isWritable minimum = true) : Value.isWritable maximum = true := by
  simp only [Value.isWritable, Int.natAbs_natCast, decide_eq_true_eq] at hw ⊢
  exact Nat.lt_trans h hw

/-- Limits are checked in vain if they are in order but for a minimum above the maximum, and the
minimum is too large for the message that says so. -/
theorem escapes_validate {l : RawLimits} {f : Fault} : Escapes l.validate f ↔
    f = .excess .integer ∧ ∃ payload accounts maximum minimum delay : Nat,
      l = ofNats payload accounts maximum minimum delay ∧ 1 ≤ minimum ∧ maximum < minimum ∧
        ¬ Value.isWritable minimum := by
  obtain ⟨payload, accounts, maximum, minimum, delay⟩ := l
  unfold validate
  simp only [Escapes.bind_iff, escapes_natural, false_or, natural_eq_ok_iff]
  constructor
  · rintro ⟨payload, rfl, accounts, rfl, maximum, rfl, minimum, rfl, delay, rfl, h⟩
    split at h
    · next h1 =>
      split at h
      · exact absurd h (Escapes.not_ok _)
      · next hlt =>
        rw [told_minimumAboveMaximum] at h
        split at h
        · exact absurd h (Escapes.not_error rfl)
        · next hw =>
          have hlt : maximum < minimum := by omega
          exact ⟨(Escapes.error_iff (by decide)).1 h, payload, accounts, maximum, minimum, delay,
            rfl, h1, hlt, fun hm => hw ⟨hm, isWritable_of_lt hlt hm⟩⟩
    · exact absurd h (Escapes.not_error rfl)
  · rintro ⟨rfl, payload, accounts, maximum, minimum, delay, hl, h1, hlt, hw⟩
    cases hl
    refine ⟨payload, rfl, accounts, rfl, maximum, rfl, minimum, rfl, delay, rfl, ?_⟩
    rw [dif_pos h1, dif_neg (by omega), told_minimumAboveMaximum, if_neg fun h => hw h.1]
    exact ⟨rfl, by decide⟩

theorem override_integer {env : Environment} {name : String} {f : Fault}
    (h : env.integer name = .error f) : f.told = f ∧ f.kind = .configuration := by
  unfold Environment.integer at h
  split at h
  · cases h
  · split at h
    · cases h
    · cases h
      exact ⟨rfl, rfl⟩

theorem escapes_overrideAll {env : Environment} {l : RawLimits} {f : Fault}
    (vars : List (String × (Value → RawLimits → RawLimits))) :
    ¬ Escapes (l.overrideAll env vars).result f := by
  induction vars generalizing l with
  | nil => exact Escapes.not_ok ()
  | cons var rest ih =>
    obtain ⟨name, put⟩ := var
    unfold overrideAll
    cases h : env.integer name with
    | error g =>
      obtain ⟨htold, hkind⟩ := override_integer h
      rw [Reply.check_error, Reply.result_fail, htold]
      exact Escapes.not_error hkind
    | ok n =>
      rw [Reply.check_ok]
      cases n with
      | none => exact ih
      | some n => exact ih

end RawLimits

namespace LogSettings

variable [Host]

theorem escapes_ofTable {t : List (Text × Value)} {f : Fault} : Escapes (ofTable t) f ↔
    ∃ v what, Value.field? "level" t = some v ∧ v.excess? = some what ∧ f = .excess what := by
  have hkind : ∀ what, (Fault.excess what).kind ≠ .configuration := fun what => by
    cases what <;> nofun
  unfold ofTable
  cases Value.field? "level" t with
  | none => exact ⟨fun h => absurd h (Escapes.not_ok _), nofun⟩
  | some v =>
    dsimp only [Option.getD_some]
    split
    · next what h => simp [Escapes.error_iff (hkind what), h]
    · next h => simp [Escapes.not_ok, h]

theorem toldAsIs_ofTable (t : List (Text × Value)) : ToldAsIs (ofTable t) := by
  unfold ofTable
  dsimp only
  split
  · exact .error rfl
  · exact .ok _

omit [Host] in
theorem escapes_validate {l : LogSettings} {f : Fault} : ¬ Escapes l.validate f := by
  unfold validate
  split
  · exact Escapes.not_ok _
  · exact Escapes.not_error rfl

theorem toldAsIs_validate (l : LogSettings) : ToldAsIs l.validate := by
  unfold validate
  split
  · exact .ok _
  · exact .error rfl

end LogSettings

namespace Settings

/-! ### Documents -/

theorem escapes_sectionOf {name : String} {doc : List (Text × Value)} {f : Fault} :
    Escapes (sectionOf name doc) f ↔
      (∃ v, Value.field? name doc = some v ∧ ∀ t, v ≠ .table t) ∧ f = .sectionNotATable name := by
  unfold sectionOf
  cases Value.field? name doc with
  | none => simp [Escapes.not_ok]
  | some v =>
    dsimp only
    unfold tableOf
    split
    · simp [Escapes.not_ok]
    · next hn =>
      rw [Escapes.error_iff (by nofun)]
      exact ⟨fun hf => ⟨⟨_, rfl, hn⟩, hf⟩, fun h => h.2⟩

variable [Host]

theorem toldAsIs_sectionOf (name : String) (doc : List (Text × Value)) :
    ToldAsIs (sectionOf name doc) := by
  unfold sectionOf
  split
  · exact .ok _
  · unfold tableOf
    split
    · exact .ok _
    · exact .error rfl

theorem toldAsIs_ofTable (doc : List (Text × Value)) : ToldAsIs (ofTable doc) := by
  unfold ofTable
  exact .bind (toldAsIs_sectionOf ..) fun _ => .bind (toldAsIs_sectionOf ..) fun log =>
    .bind (LogSettings.toldAsIs_ofTable log) fun _ => .ok _

theorem toldAsIs_validate (s : Settings) : ToldAsIs s.validate := by
  unfold validate
  exact .bind s.limits.toldAsIs_validate fun _ => .bind s.log.toldAsIs_validate fun _ => .ok _

theorem escapes_validate {s : Settings} {f : Fault} :
    Escapes s.validate f ↔ Escapes s.limits.validate f := by
  unfold validate
  simp only [Escapes.bind_iff, LogSettings.escapes_validate, false_or]
  constructor
  · rintro (h | ⟨_, _, _, _, h⟩)
    · exact h
    · exact absurd h (Escapes.not_ok _)
  · exact .inl

omit [Host] in
theorem escapes_path {s : ValidSettings} {f : Fault} : Escapes s.path f ↔
    s.file.truthy = true ∧ (∀ t, s.file ≠ .text t) ∧ f = .notAPath s.file := by
  unfold ValidSettings.path
  cases s.file.truthy with
  | false => simp [Escapes.not_ok]
  | true =>
    simp only [Bool.not_true, Bool.false_eq_true, if_false, true_and]
    split
    · next t h =>
      rw [h]
      exact ⟨fun he => absurd he (Escapes.not_ok _), fun he => absurd rfl (he.1 t)⟩
    · next v hn =>
      rw [Escapes.error_iff (by nofun)]
      exact ⟨fun hf => ⟨hn, hf⟩, fun h => h.2⟩

/-- Of settings that pass their checks, only the path of the log file can be refused. -/
theorem escapes_setup {s : Settings} {valid : ValidSettings} {f : Fault}
    (hv : s.validate = .ok valid) : Escapes s.setup f ↔ Escapes valid.path f := by
  unfold setup
  rw [Escapes.bind_iff, hv]
  constructor
  · rintro (h | ⟨_, he, h⟩)
    · exact absurd h (Escapes.not_ok _)
    · cases he
      rcases Escapes.bind_iff.1 h with h | ⟨path, -, h⟩
      · exact h
      · exact absurd h (Escapes.not_ok _)
  · exact fun h => .inr ⟨valid, rfl, Escapes.bind_iff.2 (.inl h)⟩

/-! ### Files -/

/-- The document that a file holds. -/
def document (path : Text) (bytes : List UInt8) : Except Fault (List (Text × Value)) :=
  match String.fromUTF8? ⟨bytes.toArray⟩ with
  | none => .error (.fileNotUtf8 path)
  | some text =>
    match Toml.parse (Host.fileRoom - 1) text with
    | .error .malformed => .error (.malformedFile path)
    | .error (.tooManyDigits n) => .error (.tooManyDigits n)
    | .error .tooDeep => .error (.excess .nesting)
    | .ok doc => .ok doc

theorem ofBytes_eq (path : Text) (bytes : List UInt8) :
    ofBytes (Host.fileRoom - 1) path bytes = document path bytes >>= ofTable := by
  unfold ofBytes document
  cases String.fromUTF8? ⟨bytes.toArray⟩ with
  | none => rfl
  | some text =>
    dsimp only
    cases Toml.parse (Host.fileRoom - 1) text with
    | ok doc => rfl
    | error p => cases p <;> rfl

theorem toldAsIs_document (path : Text) (bytes : List UInt8) : ToldAsIs (document path bytes) := by
  unfold document
  split
  · exact .error rfl
  · split
    · exact .error rfl
    · exact .error rfl
    · exact .error rfl
    · exact .ok _

/-- The ways in which a file cannot be read, but for one that is malformed. -/
inductive Unreadable (path : Text) (bytes : List UInt8) : Fault → Prop
  | notUtf8 (h : String.fromUTF8? ⟨bytes.toArray⟩ = none) :
      Unreadable path bytes (.fileNotUtf8 path)
  | digits {text : String} {n : Nat} (ht : String.fromUTF8? ⟨bytes.toArray⟩ = some text)
      (h : Toml.parse (Host.fileRoom - 1) text = .error (.tooManyDigits n)) :
      Unreadable path bytes (.tooManyDigits n)
  | depth {text : String} (ht : String.fromUTF8? ⟨bytes.toArray⟩ = some text)
      (h : Toml.parse (Host.fileRoom - 1) text = .error .tooDeep) :
      Unreadable path bytes (.excess .nesting)

theorem Unreadable.document_eq {path : Text} {bytes : List UInt8} {f : Fault}
    (h : Unreadable path bytes f) : document path bytes = .error f := by
  unfold document
  cases h with
  | notUtf8 hn => rw [hn]
  | digits ht hd | depth ht hd => simp only [ht, hd]

theorem escapes_document {path : Text} {bytes : List UInt8} {f : Fault} :
    Escapes (document path bytes) f ↔ Unreadable path bytes f := by
  constructor
  · intro h
    unfold document at h
    cases ht : String.fromUTF8? ⟨bytes.toArray⟩ with
    | none =>
      rw [ht, Escapes.error_iff (by nofun)] at h
      exact h ▸ .notUtf8 ht
    | some text =>
      rw [ht] at h
      dsimp only at h
      cases hp : Toml.parse (Host.fileRoom - 1) text with
      | ok doc =>
        rw [hp] at h
        exact absurd h (Escapes.not_ok doc)
      | error p =>
        rw [hp] at h
        cases p with
        | malformed => exact absurd h (Escapes.not_error rfl)
        | tooManyDigits n =>
          rw [(Escapes.error_iff (by nofun)).1 h]
          exact .digits ht hp
        | tooDeep =>
          rw [(Escapes.error_iff (by nofun)).1 h]
          exact .depth ht hp
  · intro h
    refine ⟨h.document_eq, ?_⟩
    cases h <;> nofun

theorem escapes_ofTable {doc : List (Text × Value)} {f : Fault} : Escapes (ofTable doc) f ↔
    Escapes (sectionOf "governance" doc) f ∨
      ∃ limits, sectionOf "governance" doc = .ok limits ∧
        (Escapes (sectionOf "logging" doc) f ∨
          ∃ log, sectionOf "logging" doc = .ok log ∧ Escapes (LogSettings.ofTable log) f) := by
  unfold ofTable
  simp only [Escapes.bind_iff]
  constructor
  · rintro (h | ⟨limits, hl, h | ⟨log, hg, h | ⟨s, -, h⟩⟩⟩)
    · exact .inl h
    · exact .inr ⟨limits, hl, .inl h⟩
    · exact .inr ⟨limits, hl, .inr ⟨log, hg, h⟩⟩
    · exact absurd h (Escapes.not_ok _)
  · rintro (h | ⟨limits, hl, h | ⟨log, hg, h⟩⟩)
    · exact .inl h
    · exact .inr ⟨limits, hl, .inl h⟩
    · exact .inr ⟨limits, hl, .inr ⟨log, hg, .inl h⟩⟩

/-! ### Loading -/

/-- Settings with the environment applied, unless a variable is no integer. -/
def overridden (s : Settings) (env : Environment) : Except Fault Settings :=
  (s.override env).result.map fun _ => (s.override env).state

theorem escapes_overridden {s : Settings} {env : Environment} {f : Fault} :
    ¬ Escapes (s.overridden env) f := by
  unfold overridden override
  cases h : (s.limits.override env).result with
  | ok u =>
    rw [Reply.andThen_of_ok (by exact h)]
    exact Escapes.not_ok _
  | error g =>
    rw [Reply.andThen_of_error (by exact h)]
    intro he
    have hn : ¬ Escapes (s.limits.override env).result f := RawLimits.escapes_overrideAll _
    exact hn ⟨h.trans (congrArg _ (Except.error.inj he.eq_error)), he.kind_ne⟩

variable {t : FileTree (List UInt8)} {env : Environment} {p : Value} {path : Text}
  {bytes : List UInt8}

theorem result_load (hp : fileFor env p = .text path)
    (hf : t.find (.ofText path) = .ok (.file bytes)) : (load t env p).result = (do
      let doc ← document path bytes
      let s ← (← ofTable doc).overridden env
      let _ ← s.validate
      return s) := by
  have hread : (read (Host.fileRoom - 1) t path).result = document path bytes >>= ofTable := by
    unfold read
    rw [hf, Reply.check_ok, ← ofBytes_eq]
    have htell : ToldAsIs (ofBytes (Host.fileRoom - 1) path bytes) := by
      rw [ofBytes_eq]
      exact .bind (toldAsIs_document path bytes) toldAsIs_ofTable
    refine (htell.result_check () _).trans ?_
    cases ofBytes (Host.fileRoom - 1) path bytes <;> rfl
  unfold load readWith
  rw [hp]
  simp only [Reply.result_andThen, hread, (toldAsIs_validate _).result_check, bind_assoc]
  rfl

end Settings

/-! ### The log -/

namespace Log

theorem Level.numberOfWord_name (l : Level) : numberOfWord l.name = .ok l.number := by
  cases l <;> decide +kernel

namespace Logbook

variable [Host]

/-- A file can be opened, with the folders on the way to it. -/
def Opens (b : Logbook) (text : Text) : Prop :=
  ((b.files.makeWay (Route.ofText text).parent).andThen fun t _ =>
    t.openFile (b.pathOf text) []).result = .ok ()

theorem result_attach {b : Logbook} {text : Text} (h : b.Opens text) (n : Nat) :
    (b.attach text n).result = .ok () := by
  unfold attach
  rw [Reply.result_onDone, Reply.result_within]
  exact h

theorem result_apply {b : Logbook} {l : Level} {file : Option Text}
    (hb : b.configured = true) (h : ∀ text, file = some text → b.Opens text) :
    (b.apply l.name file).result = .ok () := by
  have hc : b.configure { Request.standard with level := some l.name } = .done b () := by
    unfold configure
    rw [if_pos hb]
  unfold apply
  rw [hc, Reply.result_andThen, Level.numberOfWord_name]
  cases file with
  | none => rfl
  | some text =>
    rw [Reply.check_ok]
    dsimp only [Reply.done]
    split
    · rfl
    · -- The threshold and the handlers have changed by now, and the files have not.
      refine result_attach ?_ l.number
      exact h text rfl

end Logbook

end Log

namespace Settings

/-! ### Launching -/

theorem text_of_path {valid : ValidSettings} {text : Text} (h : valid.path = .ok (some text)) :
    valid.file = .text text := by
  unfold ValidSettings.path at h
  split at h
  · cases h
  · split at h
    · next ht =>
      cases h
      exact ht
    · cases h

section AnyHost

variable [Host]

theorem toldAsIs_path (valid : ValidSettings) : ToldAsIs valid.path := by
  unfold ValidSettings.path
  split
  · exact .ok _
  · split
    · exact .ok _
    · exact .error rfl

theorem toldAsIs_setup (s : Settings) : ToldAsIs s.setup := by
  unfold setup
  exact .bind (toldAsIs_validate s) fun valid => .bind (toldAsIs_path valid) fun _ => .ok _

theorem file_of_setup {s : Settings} {setup : Setup} {text : Text} (h : s.setup = .ok setup)
    (ht : setup.file = some text) : s.log.file = .text text := by
  unfold Settings.setup validate at h
  simp only [bind_eq_ok_iff, pure_eq_ok_iff] at h
  obtain ⟨_, ⟨limits, -, level, -, rfl⟩, file, hfile, rfl⟩ := h
  cases ht
  exact text_of_path hfile

variable {σ : Type} {t : FileTree (List UInt8)} {env : Environment} {p : Value}
  {b : Log.Logbook} {clock : Clock} {funds : σ}

/-- Load settings, set up the log as they say, and open a chamber under their limits. -/
def launch (t : FileTree (List UInt8)) (env : Environment) (p : Value) (b : Log.Logbook)
    (clock : Clock) (funds : σ) : Reply Log.Logbook (Chamber σ) :=
  ((load t env p).within fun _ => b).andThen fun b s =>
    .check b s.setup fun setup =>
      (b.apply setup.level.name setup.file).andThen fun b _ =>
        .done b (.empty setup.limits clock funds)

/-- If the log is set up and its file can be opened, all depends on the settings. -/
theorem result_launch (hb : b.configured = true)
    (ho : ∀ s text, (load t env p).result = .ok s → s.log.file = .text text → b.Opens text) :
    (launch t env p b clock funds).result = (do
      let s ← (load t env p).result
      let setup ← s.setup
      return .empty setup.limits clock funds) := by
  unfold launch
  rw [Reply.result_andThen, Reply.result_within, Reply.state_within]
  cases hl : (load t env p).result with
  | error f => rfl
  | ok s =>
    show (Reply.check b s.setup _).result =
      s.setup >>= fun setup => .ok (Chamber.empty setup.limits clock funds)
    rw [(toldAsIs_setup s).result_check]
    cases hs : s.setup with
    | error f => rfl
    | ok setup =>
      have happly : (b.apply setup.level.name setup.file).result = .ok () :=
        Log.Logbook.result_apply hb fun text ht => ho s text hl (file_of_setup hs ht)
      refine (Reply.result_andThen ..).trans ?_
      rw [happly]
      rfl

theorem eq_empty_of_launch (hb : b.configured = true)
    (ho : ∀ s text, (load t env p).result = .ok s → s.log.file = .text text → b.Opens text)
    {c : Chamber σ} (h : (launch t env p b clock funds).result = .ok c) :
    ∃ limits, c = .empty limits clock funds := by
  rw [result_launch hb ho] at h
  simp only [bind_eq_ok_iff, pure_eq_ok_iff] at h
  obtain ⟨_, -, setup, -, rfl⟩ := h
  exact ⟨setup.limits, rfl⟩

/-- The faults, other than those of kind `configuration`, that come of a file and an
environment. -/
inductive Unreported (env : Environment) (path : Text) (bytes : List UInt8) : Fault → Prop
  | file {f : Fault} (h : Unreadable path bytes f) : Unreported env path bytes f
  | governance {doc : List (Text × Value)} {v : Value} (hd : document path bytes = .ok doc)
      (hv : Value.field? "governance" doc = some v) (hn : ∀ t, v ≠ .table t) :
      Unreported env path bytes (.sectionNotATable "governance")
  | logging {doc limits : List (Text × Value)} {v : Value} (hd : document path bytes = .ok doc)
      (hl : sectionOf "governance" doc = .ok limits)
      (hv : Value.field? "logging" doc = some v) (hn : ∀ t, v ≠ .table t) :
      Unreported env path bytes (.sectionNotATable "logging")
  /-- The level is written before it is known whether a variable overrides it. -/
  | level {doc limits log : List (Text × Value)} {v : Value} {what : Value.Excess}
      (hd : document path bytes = .ok doc) (hl : sectionOf "governance" doc = .ok limits)
      (hg : sectionOf "logging" doc = .ok log) (hv : Value.field? "level" log = some v)
      (hw : v.excess? = some what) : Unreported env path bytes (.excess what)
  | minimum {doc : List (Text × Value)} {given s : Settings}
      {payload accounts maximum minimum delay : Nat} (hd : document path bytes = .ok doc)
      (hg : ofTable doc = .ok given) (hs : given.overridden env = .ok s)
      (hl : s.limits = .ofNats payload accounts maximum minimum delay) (h1 : 1 ≤ minimum)
      (hlt : maximum < minimum) (hw : ¬ Value.isWritable minimum) :
      Unreported env path bytes (.excess .integer)
  | logFile {doc : List (Text × Value)} {given s : Settings} {valid : ValidSettings}
      (hd : document path bytes = .ok doc) (hg : ofTable doc = .ok given)
      (hs : given.overridden env = .ok s) (hv : s.validate = .ok valid)
      (ht : valid.file.truthy = true) (hn : ∀ t, valid.file ≠ .text t) :
      Unreported env path bytes (.notAPath valid.file)

variable {path : Text} {bytes : List UInt8}

theorem escapes_launch (hp : fileFor env p = .text path)
    (hf : t.find (.ofText path) = .ok (.file bytes)) (hb : b.configured = true)
    (ho : ∀ s text, (load t env p).result = .ok s → s.log.file = .text text → b.Opens text)
    {f : Fault} :
    Escapes (launch t env p b clock funds).result f ↔ Unreported env path bytes f := by
  rw [result_launch hb ho, result_load hp hf]
  simp only [bind_assoc, pure_bind, Escapes.bind_iff, escapes_overridden, false_or,
    escapes_document, escapes_ofTable, escapes_sectionOf, LogSettings.escapes_ofTable,
    escapes_validate, RawLimits.escapes_validate]
  constructor
  · -- The reader, the sections of the document, and the settings with the environment applied.
    rintro (h | ⟨doc, hd, h | ⟨given, hg, s, hs, h⟩⟩)
    · exact .file h
    · rcases h with ⟨⟨v, hv, hn⟩, rfl⟩ | ⟨limits, hl, ⟨⟨v, hv, hn⟩, rfl⟩ | ⟨log, hg, h⟩⟩
      · exact .governance hd hv hn
      · exact .logging hd hl hv hn
      · obtain ⟨v, what, hv, hw, rfl⟩ := h
        exact .level hd hl hg hv hw
    · rcases h with ⟨rfl, h⟩ | ⟨valid, hv, h | ⟨setup, -, h⟩⟩
      · obtain ⟨payload, accounts, maximum, minimum, delay, hl, h1, hlt, hw⟩ := h
        exact .minimum hd hg hs hl h1 hlt hw
      · rw [escapes_setup hv, escapes_path] at h
        obtain ⟨ht, hn, rfl⟩ := h
        exact .logFile hd hg hs hv ht hn
      · exact absurd h (Escapes.not_ok _)
  · intro h
    cases h with
    | file h => exact .inl h
    | governance hd hv hn => exact .inr ⟨_, hd, .inl (.inl ⟨⟨_, hv, hn⟩, rfl⟩)⟩
    | logging hd hl hv hn => exact .inr ⟨_, hd, .inl (.inr ⟨_, hl, .inl ⟨⟨_, hv, hn⟩, rfl⟩⟩)⟩
    | level hd hl hg hv hw =>
      exact .inr ⟨_, hd, .inl (.inr ⟨_, hl, .inr ⟨_, hg, _, _, hv, hw, rfl⟩⟩)⟩
    | minimum hd hg hs hl h1 hlt hw =>
      exact .inr ⟨_, hd, .inr ⟨_, hg, _, hs, .inl ⟨rfl, _, _, _, _, _, hl, h1, hlt, hw⟩⟩⟩
    | logFile hd hg hs hv ht hn =>
      have hsetup := (escapes_setup hv).2 (escapes_path.2 ⟨ht, hn, rfl⟩)
      exact .inr ⟨_, hd, .inr ⟨_, hg, _, hs, .inr ⟨_, hv, .inl hsetup⟩⟩⟩

end AnyHost

end Settings

end QuadraticVoting
