import QuadraticVoting.Proofs.Startup

/-!
# Where settings come from

Each setting has three sources: a variable of the environment, the document, and the standard
settings. The first of them that says something decides (`Sources.limit`, `Sources.level`,
`Sources.file`). Reading a document, applying the environment and checking what comes out are three
passes over all settings, and they come to the same as deciding each setting by itself
(`Settings.resolve_exact`).

The five limits go through the passes in the same way. `LimitName` names them, with the key and the
variable of each, so that overriding is one induction over a list of names.

There are two ways in which settings do not come to a fault of kind `configuration` although they
should (`Sources.Unreported`). A level in the document is written before it is known whether the
environment overrides it, and a minimum above the maximum is written in the message that refuses
it; both fail if what is to be written is too large.
-/

namespace QuadraticVoting

/-! ### The limits by name -/

inductive LimitName
  | payload
  | accounts
  | maximum
  | minimum
  | delay
deriving DecidableEq

namespace LimitName

def all : List LimitName := [payload, accounts, maximum, minimum, delay]

/-- The key under which a document keeps a limit. -/
def key : LimitName → String
  | payload => "offchain_data_limit"
  | accounts => "account_size_limit"
  | maximum => "maximum_duration"
  | minimum => "minimum_duration"
  | delay => "delay_limit"

/-- The variable that overrides a limit. -/
def variableName : LimitName → String
  | payload => "QVOTE_OFFCHAIN_DATA_LIMIT"
  | accounts => "QVOTE_ACCOUNT_SIZE_LIMIT"
  | maximum => "QVOTE_MAXIMUM_DURATION"
  | minimum => "QVOTE_MINIMUM_DURATION"
  | delay => "QVOTE_DELAY_LIMIT"

def get (x : LimitName) (l : RawLimits) : Value :=
  match x with
  | payload => l.payload
  | accounts => l.accounts
  | maximum => l.maximum
  | minimum => l.minimum
  | delay => l.delay

def put (x : LimitName) (v : Value) (l : RawLimits) : RawLimits :=
  match x with
  | payload => { l with payload := v }
  | accounts => { l with accounts := v }
  | maximum => { l with maximum := v }
  | minimum => { l with minimum := v }
  | delay => { l with delay := v }

theorem mem_all (x : LimitName) : x ∈ all := by cases x <;> decide

theorem get_put_self (x : LimitName) (v : Value) (l : RawLimits) : x.get (x.put v l) = v := by
  cases x <;> rfl

theorem get_put_ne {x y : LimitName} (h : y ≠ x) (v : Value) (l : RawLimits) :
    y.get (x.put v l) = y.get l := by
  cases x <;> cases y <;> first | rfl | exact absurd rfl h

end LimitName

namespace RawLimits

/-- The limits with a value for each name. -/
def ofNames (f : LimitName → Value) : RawLimits :=
  ⟨f .payload, f .accounts, f .maximum, f .minimum, f .delay⟩

theorem eq_ofNames {l : RawLimits} {f : LimitName → Value} (h : ∀ x : LimitName, x.get l = f x) :
    l = ofNames f := by
  have hf : f = fun x => x.get l := funext fun x => (h x).symm
  rw [hf]
  rfl

theorem get_ofTable (t : List (Text × Value)) (x : LimitName) :
    x.get (ofTable t) = (Value.field? x.key t).getD (x.get standard) := by cases x <;> rfl

theorem overrides_eq : overrides = LimitName.all.map fun x => (x.variableName, x.put) := rfl

end RawLimits

/-! ### Variables that are integers -/

namespace Environment

variable {env : Environment} {name : String}

/-- A variable is unset, empty, or a numeral. -/
def Numeric (env : Environment) (name : String) : Prop :=
  ∀ t, env.get? name = some t → ∃ n, t.integer? = some n

/-- The integer of a variable that is a numeral. -/
def integer? (env : Environment) (name : String) : Option Int :=
  (env.get? name).bind Text.integer?

theorem integer_eq_ok_iff {n : Option Int} :
    env.integer name = .ok n ↔ env.Numeric name ∧ n = env.integer? name := by
  unfold integer Numeric integer?
  cases env.get? name with
  | none => simp [eq_comm]
  | some t => cases ht : t.integer? <;> simp [ht, eq_comm]

end Environment

/-! ### Overriding -/

namespace RawLimits

variable {env : Environment}

/-- Limits of which one is overridden, if its variable is set. -/
def overrideOne (env : Environment) (l : RawLimits) (y : LimitName) : RawLimits :=
  match env.integer? y.variableName with
  | none => l
  | some n => y.put (.int n) l

theorem get_overrideOne (l : RawLimits) (x y : LimitName) : x.get (l.overrideOne env y) =
    if x = y then ((env.integer? x.variableName).map Value.int).getD (x.get l) else x.get l := by
  unfold overrideOne
  by_cases h : x = y
  · subst h
    rw [if_pos rfl]
    cases env.integer? x.variableName with
    | none => rfl
    | some n => exact x.get_put_self (.int n) l
  · rw [if_neg h]
    cases env.integer? y.variableName with
    | none => rfl
    | some n => exact LimitName.get_put_ne h (.int n) l

variable [Host]

theorem overrideAll_cons {y : LimitName} (h : env.Numeric y.variableName) (l : RawLimits)
    (rest : List (String × (Value → RawLimits → RawLimits))) :
    l.overrideAll env ((y.variableName, y.put) :: rest) =
      (l.overrideOne env y).overrideAll env rest := by
  rw [overrideAll, Environment.integer_eq_ok_iff.2 ⟨h, rfl⟩, Reply.check_ok]
  unfold overrideOne
  cases env.integer? y.variableName <;> rfl

theorem result_overrideAll (l : RawLimits) (names : List LimitName) :
    (l.overrideAll env (names.map fun x => (x.variableName, x.put))).result = .ok () ↔
      ∀ x ∈ names, env.Numeric x.variableName := by
  induction names generalizing l with
  | nil => exact ⟨fun _ => nofun, fun _ => rfl⟩
  | cons y rest ih =>
    rw [List.map_cons, List.forall_mem_cons]
    by_cases hy : env.Numeric y.variableName
    · rw [overrideAll_cons hy, ih]
      exact (and_iff_right hy).symm
    · refine ⟨fun h => absurd h ?_, fun h => absurd h.1 hy⟩
      rw [overrideAll]
      cases hi : env.integer y.variableName with
      | error f => exact nofun
      | ok n => exact absurd (Environment.integer_eq_ok_iff.1 hi).1 hy

/-- If each variable is a numeral, a limit that is overridden has the integer of its variable, if
that is set; all others are as they were. -/
theorem get_state_overrideAll {names : List LimitName}
    (h : ∀ x ∈ names, env.Numeric x.variableName) (l : RawLimits) (x : LimitName) :
    x.get (l.overrideAll env (names.map fun x => (x.variableName, x.put))).state =
      if x ∈ names then ((env.integer? x.variableName).map Value.int).getD (x.get l)
      else x.get l := by
  induction names generalizing l with
  | nil => rfl
  | cons y rest ih =>
    obtain ⟨hy, hrest⟩ := List.forall_mem_cons.1 h
    rw [List.map_cons, overrideAll_cons hy, ih hrest, get_overrideOne]
    by_cases hx : x = y
    · -- A name that comes again is overridden by the same integer again.
      subst hx
      rw [if_pos rfl, if_pos List.mem_cons_self]
      cases env.integer? x.variableName <;> split <;> rfl
    · simp only [List.mem_cons, hx, false_or, if_false]

end RawLimits

/-! ### Checking -/

theorem Value.int_natCast_inj {m n : Nat} : Value.int m = .int n ↔ m = n := by
  rw [Value.int.injEq, Int.natCast_inj]

theorem CodePoint.eq_map_char {points : List CodePoint} {cs : List Char}
    (h : points.mapM char? = some cs) : points = cs.map char := by
  induction points generalizing cs with
  | nil => cases h; rfl
  | cons p rest ih =>
    simp only [List.mapM_cons, Option.bind_eq_bind, Option.bind_eq_some_iff, Option.pure_def,
      Option.some.injEq] at h
    obtain ⟨c, hc, cs, hcs, rfl⟩ := h
    cases p with
    | surrogate i => cases hc
    | char d =>
      cases hc
      rw [List.map_cons, ← ih hcs]

theorem Text.string?_eq_some_iff {t : Text} {s : String} : t.string? = some s ↔ t = s := by
  refine ⟨fun h => ?_, fun h => h ▸ string?_ofString s⟩
  obtain ⟨cs, hcs, rfl⟩ := Option.map_eq_some_iff.1 h
  rw [ofString, String.toList_ofList, ofChars, ← CodePoint.eq_map_char hcs]

namespace Log.Level

theorem ofText?_eq_some_iff {t : Text} {l : Level} : ofText? t = some l ↔ t = l.name := by
  unfold ofText?
  rw [Option.bind_eq_some_iff]
  constructor
  · rintro ⟨s, hs, hl⟩
    unfold ofName? at hl
    have hname := List.find?_some hl
    rw [beq_iff_eq] at hname
    rw [Text.string?_eq_some_iff.1 hs, hname]
  · rintro rfl
    exact ⟨l.name, Text.string?_ofString _, ofName?_name l⟩

theorem upperCase_name (l : Level) : (l.name : Text).upperCase = l.name := by
  cases l <;> decide +kernel

end Log.Level

theorem RawLimits.validate_eq_ok_iff [Host] {l : RawLimits} {limits : Limits} :
    l.validate = .ok limits ↔ l = ofLimits limits := by
  refine ⟨fun h => ?_, fun h => h ▸ validate_ofLimits limits⟩
  unfold validate at h
  simp only [bind_eq_ok_iff, natural_eq_ok_iff] at h
  obtain ⟨payload, hp, accounts, ha, maximum, hmax, minimum, hmin, delay, hd, h⟩ := h
  split at h
  · split at h
    · cases h
      obtain ⟨_, _, _, _, _⟩ := l
      cases hp; cases ha; cases hmax; cases hmin; cases hd
      rfl
    · cases h
  · cases h

theorem LogSettings.validate_eq_ok_iff {l : LogSettings} {level : Log.Level} :
    l.validate = .ok level ↔ l.level = level.name := by
  rw [← Log.Level.ofText?_eq_some_iff]
  unfold validate
  cases Log.Level.ofText? l.level with
  | none => exact ⟨nofun, nofun⟩
  | some x =>
    exact ⟨fun h => congrArg some (Except.ok.inj h), fun h => congrArg _ (Option.some.inj h)⟩

/-! ### The sources -/

/-- What settings are made of: the two sections of a document, and the environment. -/
structure Sources where
  governance : List (Text × Value)
  logging : List (Text × Value)
  env : Environment

namespace Sources

/-- A limit: the integer of its variable, else what the document says, else the standard one. -/
def limit (src : Sources) (x : LimitName) : Value :=
  ((src.env.integer? x.variableName).map Value.int).getD
    ((Value.field? x.key src.governance).getD (x.get .standard))

/-- The level before the environment is looked at. -/
def givenLevel (src : Sources) : Value :=
  (Value.field? "level" src.logging).getD (.text "INFO")

def level (src : Sources) : Text :=
  ((src.env.get? "QVOTE_LOG_LEVEL").getD src.givenLevel.plain).upperCase

def file (src : Sources) : Value :=
  ((src.env.get? "QVOTE_LOG_FILE").map Value.text).getD
    ((Value.field? "file_path" src.logging).getD (.text ""))

/-- The settings of the document alone. -/
def given (src : Sources) : Settings :=
  ⟨.ofTable src.governance, src.givenLevel.plain.upperCase,
    (Value.field? "file_path" src.logging).getD (.text "")⟩

/-- The settings, each decided by itself. -/
def settings (src : Sources) : Settings := ⟨.ofNames src.limit, ⟨src.level, src.file⟩⟩

/-- What makes settings valid: variables that are numerals, limits that are natural numbers with a
minimum from one up to the maximum, and a level that there is. -/
structure Sound (src : Sources) : Prop where
  numeric : ∀ x : LimitName, src.env.Numeric x.variableName
  natural : ∀ x, ∃ n : Nat, src.limit x = .int n
  ordered : ∃ minimum maximum : Nat, src.limit .minimum = .int minimum ∧
    src.limit .maximum = .int maximum ∧ 1 ≤ minimum ∧ minimum ≤ maximum
  level : ∃ l : Log.Level, src.level = l.name

section AnyHost

variable [Host]

/-- The faults, other than those of kind `configuration`, that come of sources. -/
inductive Unreported (src : Sources) : Fault → Prop
  /-- The level of the document is too large to be written. -/
  | level {what : Value.Excess} (h : src.givenLevel.excess? = some what) :
      Unreported src (.excess what)
  /-- The minimum is above the maximum, and too large for the message that says so. -/
  | minimum {minimum maximum : Nat} (hw : src.givenLevel.excess? = none)
      (hn : ∀ x : LimitName, src.env.Numeric x.variableName)
      (hl : ∀ x, ∃ n : Nat, src.limit x = .int n) (hmin : src.limit .minimum = .int minimum)
      (hmax : src.limit .maximum = .int maximum) (h1 : 1 ≤ minimum) (hlt : maximum < minimum)
      (hlong : ¬ Value.isWritable minimum) : Unreported src (.excess .integer)

end AnyHost

variable {src : Sources}

/-- Overriding the settings of the document decides each of them by itself. -/
theorem settings_eq (src : Sources) : src.settings = ⟨.ofNames fun x =>
    ((src.env.integer? x.variableName).map Value.int).getD (x.get src.given.limits),
    src.given.log.override src.env⟩ := by
  have hlevel : src.level = (src.given.log.override src.env).level := by
    unfold level LogSettings.override
    cases src.env.get? "QVOTE_LOG_LEVEL" <;> rfl
  have hlimit : src.limit = fun x =>
      ((src.env.integer? x.variableName).map Value.int).getD (x.get src.given.limits) :=
    funext fun x => congrArg _ (RawLimits.get_ofTable src.governance x).symm
  rw [settings, hlevel, hlimit]
  rfl

theorem limit_eq_get {l : RawLimits} (h : RawLimits.ofNames src.limit = l) (x : LimitName) :
    src.limit x = x.get l := by
  rw [← h]
  cases x <;> rfl

theorem natural_of_eq {payload accounts maximum minimum delay : Nat}
    (h : RawLimits.ofNames src.limit = .ofNats payload accounts maximum minimum delay)
    (x : LimitName) : ∃ n : Nat, src.limit x = .int n := by
  rw [limit_eq_get h]
  cases x <;> exact ⟨_, rfl⟩

theorem limits_eq_ofNats (hl : ∀ x, ∃ n : Nat, src.limit x = .int n) :
    ∃ n : LimitName → Nat, (∀ x, src.limit x = .int (n x)) ∧ RawLimits.ofNames src.limit =
      .ofNats (n .payload) (n .accounts) (n .maximum) (n .minimum) (n .delay) := by
  obtain ⟨n, hn⟩ := Classical.skolem.1 hl
  refine ⟨n, hn, ?_⟩
  unfold RawLimits.ofNames RawLimits.ofNats
  simp only [hn]

theorem validate_iff [Host] (hn : ∀ x : LimitName, src.env.Numeric x.variableName) :
    (∃ valid, src.settings.validate = .ok valid) ↔ src.Sound := by
  unfold Settings.validate
  simp only [bind_eq_ok_iff, pure_eq_ok_iff, RawLimits.validate_eq_ok_iff,
    LogSettings.validate_eq_ok_iff]
  constructor
  · rintro ⟨_, limits, hlimits, level, hlevel, -⟩
    have hget : ∀ x, src.limit x = x.get (.ofLimits limits) := limit_eq_get hlimits
    exact ⟨hn, natural_of_eq hlimits, ⟨_, _, hget .minimum, hget .maximum,
      limits.one_le_minimum, limits.minimum_le_maximum⟩, level, hlevel⟩
  · intro h
    obtain ⟨n, hlimit, hnats⟩ := limits_eq_ofNats h.natural
    obtain ⟨minimum, maximum, hmin, hmax, h1, hle⟩ := h.ordered
    obtain ⟨level, hlevel⟩ := h.level
    rw [hlimit, Value.int_natCast_inj] at hmin hmax
    exact ⟨_, ⟨n .payload, n .accounts, n .maximum, n .minimum, n .delay, by omega, by omega⟩,
      hnats, level, hlevel, rfl⟩

end Sources

/-! ### Resolving -/

namespace Settings

section AnyHost

variable [Host]

/-- Read a document, apply the environment, and check what comes out. -/
def resolve (doc : List (Text × Value)) (env : Environment) : Except Fault Settings := do
  let s ← (← ofTable doc).overridden env
  let _ ← s.validate
  return s

theorem result_load_eq_resolve {t : FileTree (List UInt8)} {env : Environment} {p : Value}
    {path : Text} {bytes : List UInt8} (hp : fileFor env p = .text path)
    (hf : t.find (.ofText path) = .ok (.file bytes)) :
    (load t env p).result = document path bytes >>= fun doc => resolve doc env :=
  result_load hp hf

theorem overridden_eq (given : Settings) (env : Environment) :
    given.overridden env = (given.limits.override env).result.map fun _ =>
      ⟨(given.limits.override env).state, given.log.override env⟩ := by
  unfold overridden override
  cases h : (given.limits.override env).result with
  | ok u =>
    rw [Reply.andThen_of_ok (by exact h)]
    rfl
  | error f =>
    rw [Reply.andThen_of_error (by exact h)]
    rfl

theorem overridden_eq_ok_iff {given s : Settings} {env : Environment} :
    given.overridden env = .ok s ↔ (∀ x : LimitName, env.Numeric x.variableName) ∧
      s = ⟨.ofNames fun x =>
        ((env.integer? x.variableName).map Value.int).getD (x.get given.limits),
        given.log.override env⟩ := by
  have hresult : (given.limits.override env).result = .ok () ↔
      ∀ x : LimitName, env.Numeric x.variableName := by
    rw [RawLimits.override, RawLimits.overrides_eq, RawLimits.result_overrideAll]
    exact ⟨fun h x => h x x.mem_all, fun h x _ => h x⟩
  have hstate : (∀ x : LimitName, env.Numeric x.variableName) →
      (given.limits.override env).state = .ofNames fun x =>
        ((env.integer? x.variableName).map Value.int).getD (x.get given.limits) := by
    intro h
    refine RawLimits.eq_ofNames fun x => ?_
    rw [RawLimits.override, RawLimits.overrides_eq,
      RawLimits.get_state_overrideAll (fun x _ => h x), if_pos x.mem_all]
  rw [overridden_eq]
  cases hr : (given.limits.override env).result with
  | error f =>
    rw [hr] at hresult
    exact ⟨nofun, fun h => nomatch hresult.2 h.1⟩
  | ok u =>
    have hn := hresult.1 hr
    rw [hstate hn]
    exact ⟨fun h => ⟨hn, (Except.ok.inj h).symm⟩, fun h => congrArg _ h.2.symm⟩

end AnyHost

variable {doc : List (Text × Value)} {src : Sources}

section AnyHost

variable [Host]

theorem ofTable_eq (hg : sectionOf "governance" doc = .ok src.governance)
    (hl : sectionOf "logging" doc = .ok src.logging) : ofTable doc =
      match src.givenLevel.excess? with
      | some what => .error (.excess what)
      | none => .ok src.given := by
  have hlog : LogSettings.ofTable src.logging = match src.givenLevel.excess? with
      | some what => .error (.excess what)
      | none => .ok src.given.log := rfl
  unfold ofTable
  rw [hg, hl]
  show (LogSettings.ofTable src.logging >>= fun log =>
    .ok (⟨.ofTable src.governance, log⟩ : Settings)) = _
  rw [hlog]
  cases src.givenLevel.excess? <;> rfl

/-- If the level of the document can be written, only numerals and validity matter. -/
theorem resolve_eq (hg : sectionOf "governance" doc = .ok src.governance)
    (hl : sectionOf "logging" doc = .ok src.logging) (hw : src.givenLevel.excess? = none) :
    resolve doc src.env = (do
      let s ← src.given.overridden src.env
      let _ ← s.validate
      return s) := by
  unfold resolve
  rw [ofTable_eq hg hl, hw]
  rfl

theorem resolve_eq_error (hg : sectionOf "governance" doc = .ok src.governance)
    (hl : sectionOf "logging" doc = .ok src.logging) {what : Value.Excess}
    (hw : src.givenLevel.excess? = some what) : resolve doc src.env = .error (.excess what) := by
  unfold resolve
  rw [ofTable_eq hg hl, hw]
  rfl

theorem resolve_eq_ok_iff (hg : sectionOf "governance" doc = .ok src.governance)
    (hl : sectionOf "logging" doc = .ok src.logging) {s : Settings} :
    resolve doc src.env = .ok s ↔
      src.givenLevel.excess? = none ∧ src.Sound ∧ s = src.settings := by
  cases hw : src.givenLevel.excess? with
  | some what =>
    rw [resolve_eq_error hg hl hw]
    exact ⟨nofun, nofun⟩
  | none =>
    rw [resolve_eq hg hl hw]
    simp only [bind_eq_ok_iff, pure_eq_ok_iff, overridden_eq_ok_iff, ← src.settings_eq]
    constructor
    · rintro ⟨_, ⟨hn, rfl⟩, valid, hv, rfl⟩
      exact ⟨trivial, (Sources.validate_iff hn).1 ⟨valid, hv⟩, rfl⟩
    · rintro ⟨-, hs, rfl⟩
      obtain ⟨valid, hv⟩ := (Sources.validate_iff hs.numeric).2 hs
      exact ⟨_, ⟨hs.numeric, rfl⟩, valid, hv, rfl⟩

theorem escapes_resolve (hg : sectionOf "governance" doc = .ok src.governance)
    (hl : sectionOf "logging" doc = .ok src.logging) {f : Fault} :
    Escapes (resolve doc src.env) f ↔ src.Unreported f := by
  cases hw : src.givenLevel.excess? with
  | some what =>
    have hkind : (Fault.excess what).kind ≠ .configuration := by cases what <;> nofun
    rw [resolve_eq_error hg hl hw, Escapes.error_iff hkind]
    constructor
    · rintro rfl
      exact .level hw
    · rintro (h | h)
      · rw [hw] at h
        cases h
        rfl
      · cases h.symm.trans hw
  | none =>
    rw [resolve_eq hg hl hw]
    simp only [Escapes.bind_iff, escapes_overridden, false_or, overridden_eq_ok_iff,
      ← src.settings_eq, escapes_validate, RawLimits.escapes_validate]
    constructor
    · rintro ⟨_, ⟨hn, rfl⟩, h | ⟨_, -, h⟩⟩
      · obtain ⟨rfl, payload, accounts, maximum, minimum, delay, hlimits, h1, hlt, hlong⟩ := h
        have hget := Sources.limit_eq_get hlimits
        exact .minimum hw hn (Sources.natural_of_eq hlimits) (hget .minimum) (hget .maximum) h1
          hlt hlong
      · exact absurd h (Escapes.not_ok _)
    · rintro (h | ⟨-, hn, hnat, hmin, hmax, h1, hlt, hlong⟩)
      · cases hw.symm.trans h
      · obtain ⟨n, hlimit, hlimits⟩ := Sources.limits_eq_ofNats hnat
        rw [hlimit, Value.int_natCast_inj] at hmin hmax
        rw [← hmin] at h1 hlt hlong
        rw [← hmax] at hlt
        exact ⟨_, ⟨hn, rfl⟩, .inl ⟨rfl, _, _, _, _, _, hlimits, h1, hlt, hlong⟩⟩

theorem ofTable_toTable {s : Settings} {l : Log.Level} (h : s.log.level = l.name) :
    ofTable s.toTable = .ok s := by
  obtain ⟨limits, level, file⟩ := s
  cases h
  let src : Sources := ⟨limits.toTable, (⟨l.name, file⟩ : LogSettings).toTable, []⟩
  have hlevel : src.given.log = ⟨(l.name : Text).upperCase, file⟩ := rfl
  have hgiven : src.given = ⟨limits, l.name, file⟩ := by
    rw [Log.Level.upperCase_name] at hlevel
    exact congrArg₂ Settings.mk limits.ofTable_toTable hlevel
  exact (@ofTable_eq _ src _ rfl rfl).trans (congrArg _ hgiven)

/-- Resolving a document under an environment goes well if and only if the level of the document
can be written and each setting, decided by itself, is sound; the settings are then the ones so
decided. These are written under their keys, and what is written is read as the same settings,
which are valid. What fails is told of as a fault of kind `configuration`, but for what is listed
by `Sources.Unreported`. -/
theorem resolve_exact (hg : sectionOf "governance" doc = .ok src.governance)
    (hl : sectionOf "logging" doc = .ok src.logging) :
    (∀ s, resolve doc src.env = .ok s ↔
      src.givenLevel.excess? = none ∧ src.Sound ∧ s = src.settings) ∧
    src.settings.toTable = ([
      ("governance", .table (LimitName.all.map fun x => (↑x.key, src.limit x))),
      ("logging", .table [("level", .text src.level), ("file_path", src.file)])] :
        List (Text × Value)) ∧
    (src.Sound → ofTable src.settings.toTable = .ok src.settings ∧
      ∃ valid, src.settings.validate = .ok valid) ∧
    ∀ f, resolve doc src.env = .error f ∧ f.kind ≠ .configuration ↔ src.Unreported f := by
  refine ⟨fun s => resolve_eq_ok_iff hg hl, rfl, fun hs => ⟨?_, ?_⟩, fun f => ?_⟩
  · obtain ⟨l, hlevel⟩ := hs.level
    exact ofTable_toTable hlevel
  · exact (Sources.validate_iff hs.numeric).2 hs
  · rw [← escapes_resolve hg hl]
    exact ⟨fun h => ⟨h.1, h.2⟩, fun h => ⟨h.eq_error, h.kind_ne⟩⟩

end AnyHost

/-- A minimum that is a truth value and a level that is a number do no harm, as they are
overridden; a variable that is empty does not override. -/
theorem resolve_exact_overridden :
    let src : Sources := {
      governance := [("minimum_duration", .bool true), ("delay_limit", .int 7)]
      logging := [("level", .int 3), ("file_path", .text "a.log")]
      env := [("QVOTE_MINIMUM_DURATION", " 5_0\n"), ("QVOTE_LOG_LEVEL", "debug"),
        ("QVOTE_LOG_FILE", "")] }
    let doc := [(("governance" : Text), .table src.governance), ("logging", .table src.logging)]
    sectionOf "governance" doc = .ok src.governance ∧ sectionOf "logging" doc = .ok src.logging ∧
      src.Sound ∧ resolve doc src.env =
        .ok ⟨⟨.int 150, .int 1000, .int 1000, .int 50, .int 7⟩, "DEBUG", .text "a.log"⟩ := by
  intro src doc
  have hok : resolve doc src.env =
      .ok ⟨⟨.int 150, .int 1000, .int 1000, .int 50, .int 7⟩, "DEBUG", .text "a.log"⟩ := by
    decide +kernel
  obtain ⟨hiff, -, -, -⟩ := @resolve_exact doc src _ rfl rfl
  exact ⟨rfl, rfl, ((hiff _).1 hok).2.1, hok⟩

/-- With a number that is too large to be written as its level, a document fails although the
environment overrides the level; and with that number as its minimum, it fails as it should, but
not with a fault of the configuration. -/
theorem resolve_too_large :
    let n : Value := .int Value.writtenBound
    let level : Sources := ⟨[], [("level", n)], [("QVOTE_LOG_LEVEL", "INFO")]⟩
    let minimum : Sources := ⟨[("minimum_duration", n)], [], []⟩
    level.Sound ∧
      resolve [("logging", .table level.logging)] level.env = .error (.excess .integer) ∧
      ¬ minimum.Sound ∧
      resolve [("governance", .table minimum.governance)] minimum.env =
        .error (.excess .integer) ∧
      (Fault.excess .integer).kind ≠ .configuration := by
  intro n level minimum
  have hunset : ∀ x : LimitName, level.env.get? x.variableName = none := by
    intro x
    cases x <;> decide +kernel
  have hsound : level.Sound := {
    numeric x t ht := nomatch (hunset x).symm.trans ht
    natural x := by cases x <;> exact ⟨_, rfl⟩
    ordered := ⟨100, 1000, rfl, rfl, by decide, by decide⟩
    level := ⟨.info, by decide +kernel⟩ }
  have hunsound : ¬ minimum.Sound := by
    intro h
    obtain ⟨low, high, hlow, hhigh, -, hle⟩ := h.ordered
    have hlow : Value.writtenBound = low := Value.int_natCast_inj.1 hlow
    have hhigh : 1000 = high := Value.int_natCast_inj.1 hhigh
    have hlarge : 1000 < Value.writtenBound := by decide +kernel
    omega
  exact ⟨hsound, by decide +kernel, hunsound, by decide +kernel, by decide⟩

end Settings

end QuadraticVoting
