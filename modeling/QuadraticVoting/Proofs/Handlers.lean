import Mathlib.Data.List.Nodup
import QuadraticVoting.Log.Logbook
import QuadraticVoting.Proofs.Opening

/-!
# The handlers of a logbook

Handlers are added when a logbook is set up and when it is given new settings. They stay in order
(`Logbook.Sound`): only the first one may be the console's, no two write to a file under the same
path, each has the threshold of the logbook, and each file is there to be written to. What adds a
handler keeps them so (`Keeps.attach`), so setting up and new settings do (`Sound.keeps_configure`,
`Sound.keeps_apply`). Neither writes an entry, and both set the threshold that they are given.
-/

namespace QuadraticVoting.Log

namespace Logbook

variable {b b' : Logbook} {text : Text}

/-- What is written at an outlet, which is given as a host keeps it. A file has lines only. -/
def entriesAt (b : Logbook) : Outlet → List Entry
  | .console => b.console
  | .file path => ((b.files.files.get? path).getD []).map .line

/-! ### Handlers in order -/

/-- The text names the file of the handler. -/
def Names (b : Logbook) (text : Text) (h : Handler) : Prop :=
  h.outlet = .file (b.pathOf text) ∧ h.doubled = Route.doublesRoot text

/-- There is a file for the outlet to write to. -/
def Ready (b : Logbook) (o : Outlet) : Prop :=
  ∀ path, o = .file path → (b.files.files.get? path.kept).isSome

/-- The handlers are in order. -/
structure Sound (b : Logbook) : Prop where
  straight : b.files.base.Straight
  distinct : (b.handlers.map fun h => (h.outlet, h.doubled)).Nodup
  /-- The console comes first, if it comes at all. -/
  rest_file : ∀ h ∈ b.handlers.tail, h.outlet ≠ .console
  atThreshold : ∀ h ∈ b.handlers, h.threshold = b.threshold
  named : ∀ h ∈ b.handlers, h.outlet ≠ .console → ∃ text, b.Names text h
  ready : ∀ h ∈ b.handlers, b.Ready h.outlet

theorem sound_fresh {folder : Path} (h : folder.Straight) (style : Option Style)
    (fileByDefault : Bool) : (fresh folder style fileByDefault).Sound where
  straight := h
  distinct := List.nodup_nil
  rest_file := nofun
  atThreshold := nofun
  named := nofun
  ready := nofun

/-- Nothing that handlers depend on is lost. -/
structure Grows (b b' : Logbook) : Prop where
  style : b'.style = b.style
  base : b'.files.base = b.files.base
  handlers : b'.handlers = b.handlers
  threshold : b'.threshold = b.threshold
  files : ∀ k, (b.files.files.get? k).isSome → (b'.files.files.get? k).isSome

theorem Grows.refl (b : Logbook) : b.Grows b := ⟨rfl, rfl, rfl, rfl, fun _ => id⟩

theorem Grows.trans {b'' : Logbook} (h : b.Grows b') (h' : b'.Grows b'') : b.Grows b'' :=
  ⟨h'.style.trans h.style, h'.base.trans h.base, h'.handlers.trans h.handlers,
    h'.threshold.trans h.threshold, fun k hk => h'.files k (h.files k hk)⟩

theorem Sound.grows (hs : b.Sound) (h : b.Grows b') : b'.Sound where
  straight := h.base ▸ hs.straight
  distinct := h.handlers ▸ hs.distinct
  rest_file := h.handlers ▸ hs.rest_file
  atThreshold := by
    rw [h.handlers, h.threshold]
    exact hs.atThreshold
  named := by
    unfold Names pathOf
    rw [h.handlers, h.base]
    exact hs.named
  ready := by
    rw [h.handlers]
    exact fun x hx path hp => h.files _ (hs.ready x hx path hp)

theorem Grows.pathOf_eq (h : b.Grows b') (text : Text) : b'.pathOf text = b.pathOf text :=
  congrArg (Path.ofText · text) h.base

theorem Grows.hasFile_eq (h : b.Grows b') (text : Text) : b'.hasFile text = b.hasFile text := by
  unfold hasFile
  rw [h.handlers, h.pathOf_eq]

/-- The logbook with one more handler, for the file that a text names. -/
def withFile (b : Logbook) (text : Text) (n : Nat) : Logbook :=
  { b with handlers := b.handlers ++ [⟨.file (b.pathOf text), n, Route.doublesRoot text⟩] }

/-- Opening a file leaves all entries as they are, and the file gets a handler if all goes well. -/
theorem attach_cases [Host] (hs : b.Sound) (text : Text) (n : Nat) :
    ∃ b', b.Grows b' ∧ (∀ o, b'.entriesAt o = b.entriesAt o) ∧
      ((b.attach text n).state = b' ∨
        (b'.files.files.get? (b'.pathOf text).kept).isSome ∧
          (b.attach text n).state = b'.withFile text n) := by
  have hp : (b.pathOf text).Straight := Path.straight_ofText hs.straight text
  obtain ⟨hadds, hthere⟩ := FileTree.makeWay_openFile_adds (t := b.files) hp
    (Route.ofText text).parent ([] : List Text)
  unfold attach
  dsimp only
  generalize ((b.files.makeWay (Route.ofText text).parent).andThen fun t _ =>
    t.openFile (b.pathOf text) []) = q at *
  have hgrows : b.Grows { b with files := q.state } :=
    ⟨rfl, hadds.base, rfl, rfl, fun k => hadds.isSome⟩
  refine ⟨_, hgrows, fun o => ?_, ?_⟩
  · cases o with
    | console => rfl
    | file path => exact congrArg (List.map Entry.line) (hadds.getD path)
  · unfold withFile
    rw [hgrows.pathOf_eq]
    cases h : q.result with
    | error f => exact .inl (Reply.state_onDone_of_error _ h)
    | ok u => exact .inr ⟨hthere h, Reply.state_onDone_of_ok _ h⟩

theorem Sound.withFile (hs : b.Sound) (hn : b.hasFile text = false)
    (hthere : (b.files.files.get? (b.pathOf text).kept).isSome) :
    (b.withFile text b.threshold).Sound where
  straight := hs.straight
  distinct := by
    unfold Logbook.withFile
    rw [List.map_append, List.nodup_append]
    refine ⟨hs.distinct, List.nodup_singleton _, fun x hx y hy hxy => ?_⟩
    cases List.mem_singleton.1 (hxy ▸ hy)
    obtain ⟨h, hh, heq⟩ := List.mem_map.1 hx
    obtain ⟨hout, hdoubled⟩ := Prod.mk.inj heq
    have := List.any_eq_false.1 hn h hh
    simp [hout, hdoubled] at this
  rest_file := by
    have hrest := hs.rest_file
    unfold Logbook.withFile
    cases hb : b.handlers with
    | nil => exact nofun
    | cons first rest =>
      rw [hb] at hrest
      exact List.forall_mem_append.2 ⟨hrest, List.forall_mem_singleton.2 nofun⟩
  atThreshold := List.forall_mem_append.2 ⟨hs.atThreshold, List.forall_mem_singleton.2 rfl⟩
  named := List.forall_mem_append.2
    ⟨hs.named, List.forall_mem_singleton.2 fun _ => ⟨text, rfl, rfl⟩⟩
  ready := List.forall_mem_append.2
    ⟨hs.ready, List.forall_mem_singleton.2 fun _ hp => by cases hp; exact hthere⟩

/-- The handlers are still in order after a change that leaves all entries as they are. -/
structure Keeps (b b' : Logbook) : Prop where
  sound : b'.Sound
  style : b'.style = b.style
  base : b'.files.base = b.files.base
  entriesAt : ∀ o, b'.entriesAt o = b.entriesAt o

theorem Sound.keeps_self (hs : b.Sound) : b.Keeps b := ⟨hs, rfl, rfl, fun _ => rfl⟩

theorem Keeps.attach [Host] (h : b.Keeps b') (hn : b'.hasFile text = false) :
    b.Keeps (b'.attach text b'.threshold).state := by
  obtain ⟨c, hgrows, hentries, hstate⟩ := attach_cases h.sound text b'.threshold
  have hc : b.Keeps c := ⟨h.sound.grows hgrows, hgrows.style.trans h.style,
    hgrows.base.trans h.base, fun o => (hentries o).trans (h.entriesAt o)⟩
  rcases hstate with hstate | ⟨hthere, hstate⟩
  · rw [hstate]
    exact hc
  · rw [hstate, ← hgrows.threshold]
    refine ⟨hc.sound.withFile ((hgrows.hasFile_eq text).trans hn) hthere, hc.style, hc.base,
      fun o => ?_⟩
    exact Eq.trans (by cases o <;> rfl) (hc.entriesAt o)

theorem threshold_attach [Host] (hs : b.Sound) (text : Text) (n : Nat) :
    (b.attach text n).state.threshold = b.threshold := by
  obtain ⟨c, hgrows, -, hstate | ⟨-, hstate⟩⟩ := attach_cases hs text n <;> rw [hstate]
  · exact hgrows.threshold
  · exact hgrows.threshold

/-! ### Setting up -/

/-- The logbook as it is set up, with no file yet. -/
def begun (b : Logbook) (q : Request) (n : Nat) : Logbook :=
  { b with
    threshold := n
    handlers := if q.console then [⟨.console, n, false⟩] else [] }

theorem keeps_begun (hs : b.Sound) (q : Request) (n : Nat) : b.Keeps (b.begun q n) := by
  refine ⟨?_, rfl, rfl, fun o => by cases o <;> rfl⟩
  unfold begun
  cases q.console with
  | false =>
    exact ⟨hs.straight, List.nodup_nil, nofun, nofun, nofun, nofun⟩
  | true =>
    refine ⟨hs.straight, List.nodup_singleton _, nofun, List.forall_mem_singleton.2 rfl,
      List.forall_mem_singleton.2 fun h => absurd rfl h, List.forall_mem_singleton.2 nofun⟩

theorem hasFile_begun (b : Logbook) (q : Request) (n : Nat) (text : Text) :
    (b.begun q n).hasFile text = false := by
  unfold begun hasFile
  cases q.console <;> rfl

theorem keeps_configured (h : b.Keeps b') (yes : Bool) : b.Keeps { b' with configured := yes } := by
  refine ⟨h.sound.grows ⟨rfl, rfl, rfl, rfl, fun _ => id⟩, h.style, h.base,
    fun o => Eq.trans ?_ (h.entriesAt o)⟩
  cases o <;> rfl

variable [Host]

/-- A logbook that is set up anew begins without files, and takes on one at most. -/
theorem configure_cases (b : Logbook) (q : Request) :
    ((b.configure q).state = b ∧ (b.configured = true ∨ ∃ f, q.threshold = .error f)) ∨
    ∃ n b' yes, b.configured = false ∧ q.threshold = .ok n ∧
      (b' = b.begun q n ∨ b' = ((b.begun q n).attach q.fileText n).state) ∧
      (b.configure q).state = { b' with configured := yes } := by
  unfold configure
  split
  · next hb => exact .inl ⟨rfl, .inl hb⟩
  · next hb =>
    have hb : b.configured = false := eq_false_of_ne_true hb
    cases hq : q.threshold with
    | error f => exact .inl ⟨rfl, .inr ⟨f, rfl⟩⟩
    | ok n =>
      rw [Reply.check_ok]
      dsimp only
      refine .inr ⟨n, ?_⟩
      split
      · refine ⟨((b.begun q n).attach q.fileText n).state, ?_⟩
        cases h : ((b.begun q n).attach q.fileText n).result with
        | error f =>
          refine ⟨((b.begun q n).attach q.fileText n).state.configured, hb, rfl, .inr rfl, ?_⟩
          exact Reply.state_onDone_of_error _ h
        | ok u => exact ⟨true, hb, rfl, .inr rfl, Reply.state_onDone_of_ok _ h⟩
      · exact ⟨b.begun q n, true, hb, rfl, .inl rfl, rfl⟩

theorem Sound.keeps_configure (hs : b.Sound) (q : Request) : b.Keeps (b.configure q).state := by
  obtain ⟨hstate, -⟩ | ⟨n, b', yes, -, -, hb', hstate⟩ := b.configure_cases q
  · rw [hstate]
    exact hs.keeps_self
  · rw [hstate]
    have hbegun := keeps_begun hs q n
    refine keeps_configured ?_ yes
    rcases hb' with rfl | rfl
    · exact hbegun
    · exact hbegun.attach (hasFile_begun b q n _)

theorem Sound.threshold_configure (hs : b.Sound) (q : Request) :
    (b.configure q).state.threshold =
      if b.configured then b.threshold else q.threshold.toOption.getD b.threshold := by
  obtain ⟨hstate, hb | ⟨f, hf⟩⟩ | ⟨n, b', yes, hb, hq, hb', hstate⟩ := b.configure_cases q
  · rw [hstate, if_pos hb]
  · rw [hstate, hf]
    exact (ite_self _).symm
  · rw [hstate, hb, hq]
    rcases hb' with rfl | rfl
    · rfl
    · exact threshold_attach (keeps_begun hs q n).sound q.fileText n

/-! ### New settings -/

/-- The logbook with another threshold. -/
def tuned (b : Logbook) (n : Nat) : Logbook :=
  { b with
    threshold := n
    handlers := b.handlers.map fun h => { h with threshold := n } }

omit [Host] in
theorem keeps_tuned (h : b.Keeps b') (n : Nat) : b.Keeps (b'.tuned n) := by
  refine ⟨?_, h.style, h.base, fun o => Eq.trans (by cases o <;> rfl) (h.entriesAt o)⟩
  exact {
    straight := h.sound.straight
    distinct := by
      unfold tuned
      rw [List.map_map]
      exact h.sound.distinct
    rest_file := by
      unfold tuned
      rw [← List.map_tail]
      exact List.forall_mem_map.2 h.sound.rest_file
    atThreshold := List.forall_mem_map.2 fun _ _ => rfl
    named := List.forall_mem_map.2 h.sound.named
    ready := List.forall_mem_map.2 h.sound.ready }

theorem apply_eq (b : Logbook) (word : Text) (file : Option Text) :
    b.apply word file =
      (b.configure { Request.standard with level := some word }).andThen fun b _ =>
        .check b (Level.numberOfWord word) fun n =>
          let b := b.tuned n
          match file with
          | none => .done b ()
          | some f => if b.hasFile f then .done b () else b.attach f n :=
  rfl

theorem Sound.keeps_apply (hs : b.Sound) (word : Text) (file : Option Text) :
    b.Keeps (b.apply word file).state := by
  rw [apply_eq]
  refine Reply.andThen_keeps (hs.keeps_configure _) fun c _ hc => ?_
  refine Reply.check_keeps hc fun n => ?_
  have htuned := keeps_tuned hc n
  cases file with
  | none => exact htuned
  | some f =>
    dsimp only
    split
    · exact htuned
    · next hn => exact htuned.attach (eq_false_of_ne_true hn)

omit [Host] in
theorem threshold_standard (word : Text) :
    Request.threshold { Request.standard with level := some word } = Level.numberOfWord word := by
  have hempty : Level.numberOfWord "" = .ok Level.info.number := by decide +kernel
  unfold Request.threshold
  dsimp only
  split
  · next h => rw [h, hempty]
  · rfl

theorem Sound.threshold_apply (hs : b.Sound) (word : Text) (file : Option Text) :
    (b.apply word file).state.threshold = (Level.numberOfWord word).toOption.getD b.threshold := by
  have hconf := hs.threshold_configure { Request.standard with level := some word }
  have hkeep := hs.keeps_configure { Request.standard with level := some word }
  rw [threshold_standard] at hconf
  rw [apply_eq]
  cases hw : Level.numberOfWord word with
  | error f =>
    rw [hw] at hconf
    exact Reply.andThen_keeps (P := fun c : Logbook => c.threshold = b.threshold)
      (hconf.trans (ite_self _)) fun _ _ hc => hc
  | ok n =>
    rw [hw] at hconf
    cases h : (b.configure { Request.standard with level := some word }).result with
    | error f =>
      have hb : b.configured ≠ true := fun hb => by
        unfold configure at h
        rw [if_pos hb] at h
        cases h
      rw [Reply.andThen_of_error h]
      exact hconf.trans (if_neg hb)
    | ok u =>
      rw [Reply.andThen_of_ok h]
      have htuned := keeps_tuned hkeep n
      cases file with
      | none => rfl
      | some f =>
        dsimp only [Reply.check_ok]
        split
        · rfl
        · exact threshold_attach htuned.sound f n

end Logbook

end QuadraticVoting.Log
