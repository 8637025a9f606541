import QuadraticVoting.Proofs.Handlers

/-!
# Where records go

A logbook is set up, given new settings and written to, in any order (`LogStep`). Every step keeps
the handlers in order (`Sound.step`), so what it brings to an outlet can be said without following
the logbook from one handler to the next (`Logbook.brings`). A record comes to the handlers up to
the first one that leaves a fault to the caller (`reached`), and each of them writes a line at its
outlet or a report on the console (`share`). `Logbook.run_delivers` says so for all steps together.

Two paths may still be one to the host, which keeps names as bytes and does not mind a second slash
at the beginning. A file that has handlers under both has one line from each.
-/

namespace QuadraticVoting.Log

/-! ### Steps and entries -/

/-- What can be done with a logbook. -/
inductive LogStep
  | configure (request : Logbook.Request)
  | apply (level : Text) (file : Option Text)
  /-- Write a message at the level that a word stands for. -/
  | log (level logger : Text) (created : Int) (template : Text) (args : List Value)

/-- The record that a step makes. -/
def LogStep.record? : LogStep → Option Record
  | .configure _ | .apply .. => none
  | .log word logger created template args =>
    match (Level.numberOfWord word).map Level.ofNumber? with
    | .ok (some level) =>
      some ⟨level, if logger = "" then Logbook.rootLogger else logger, created, template, args⟩
    | .ok none | .error _ => none

/-- The outlet as a host keeps it, for which every name is bytes. -/
def Outlet.kept : Outlet → Outlet
  | console => console
  | file path => file path.kept

namespace Logbook

variable {b b' : Logbook} {r : Record} {style : Option Style} {x o : Outlet}
  {text : Except Fault Text}

/-- Whether the handler at an outlet reports a fault, and does not leave it to the caller. -/
def isReported (style : Option Style) (f : Fault) : Outlet → Bool
  | .console => style.isNone && f.kind != .tooDeep
  | .file _ => true

/-- What the handler at an outlet writes, and where, if this is what it has made of a record. -/
def share (style : Option Style) (r : Record) (x : Outlet) :
    Except Fault Text → List (Outlet × Entry)
  | .ok text => [(x.kept, .line text)]
  | .error f => if isReported style f x then [(.console, .report x r f)] else []

/-- What is written at an outlet of all that is written. -/
def sharesAt (o : Outlet) (shares : List (Outlet × Entry)) : List Entry :=
  (shares.filter (·.1 = o)).map Prod.snd

theorem sharesAt_append (o : Outlet) (l l' : List (Outlet × Entry)) :
    sharesAt o (l ++ l') = sharesAt o l ++ sharesAt o l' := by
  rw [sharesAt, List.filter_append, List.map_append]
  rfl

theorem sharesAt_singleton (o x : Outlet) (e : Entry) :
    sharesAt o [(x, e)] = if x = o then [e] else [] := by
  unfold sharesAt
  split
  · next h => rw [List.filter_cons_of_pos (by simpa using h)]; rfl
  · next h => rw [List.filter_cons_of_neg (by simpa using h)]; rfl

theorem mem_sharesAt {l : List (Outlet × Entry)} {e : Entry} :
    e ∈ sharesAt o l ↔ (o, e) ∈ l := by
  simp only [sharesAt, List.mem_map, List.mem_filter, decide_eq_true_eq]
  constructor
  · rintro ⟨s, ⟨hs, rfl⟩, rfl⟩
    exact hs
  · exact fun h => ⟨(o, e), ⟨h, rfl⟩, rfl⟩

section AnyHost

variable [Host]

def step (b : Logbook) : LogStep → Reply Logbook Unit
  | .configure q => b.configure q
  | .apply word file => b.apply word file
  | .log word logger created template args => b.logAt word logger created template args

def run (b : Logbook) (steps : List LogStep) : Logbook :=
  steps.foldl (fun b s => (b.step s).state) b

/-- What the handler at an outlet makes of a record. A file takes only what has a UTF-8 form. -/
def textFor (style : Option Style) (r : Record) : Outlet → Except Fault Text
  | .console =>
    match style with
    | none => r.line
    | some style => style r
  | .file _ =>
    match r.line with
    | .ok line => if line.hasSurrogate then .error (.notEncodable line) else .ok line
    | .error f => .error f

/-- Whether the next handler gets the record too. A report that breaks off is left to the caller as
well. -/
def goesOn (style : Option Style) (r : Record) (x : Outlet) : Except Fault Text → Bool
  | .ok _ => true
  | .error f => isReported style f x && r.arguments.excess? != some .nesting

/-- The handlers that a record comes to. -/
def reached (style : Option Style) (r : Record) : List Handler → List Handler
  | [] => []
  | h :: rest =>
    h :: if goesOn style r h.outlet (textFor style r h.outlet) then reached style r rest else []

/-- What handlers write of a record. -/
def sharesOf (style : Option Style) (r : Record) (handlers : List Handler) :
    List (Outlet × Entry) :=
  (reached style r handlers).flatMap fun h => share style r h.outlet (textFor style r h.outlet)

/-- What is written of a record. If there are no handlers, a warning or worse brings its message to
the console. -/
def shares (b : Logbook) (r : Record) : List (Outlet × Entry) :=
  if r.level.number < b.threshold then []
  else if b.handlers = [] then
    if r.level.number < Level.warning.number then [] else share none r .console r.message
  else sharesOf b.style r b.handlers

/-- What a step brings to an outlet. A record is made once the logbook is set up. -/
def brings (b : Logbook) (s : LogStep) (o : Outlet) : List Entry :=
  match s.record?, (b.configure .standard).result with
  | some r, .ok _ => sharesAt o ((b.configure .standard).state.shares r)
  | _, _ => []

/-- All that steps bring to an outlet, in order. -/
def entries (b : Logbook) (o : Outlet) : List LogStep → List Entry
  | [] => []
  | s :: steps => b.brings s o ++ (b.step s).state.entries o steps

/-- The threshold that a step sets, if it sets one. -/
def applied (b : Logbook) : LogStep → Option Nat
  | .configure q => if b.configured then none else q.threshold.toOption
  | .apply word _ => (Level.numberOfWord word).toOption
  | .log .. => if b.configured then none else some Level.info.number

/-- The thresholds that steps set, in order. -/
def appliedAll (b : Logbook) : List LogStep → List Nat
  | [] => []
  | s :: steps => (b.applied s).toList ++ (b.step s).state.appliedAll steps

/-! ### Writing -/

omit [Host] in
theorem print_grows (b : Logbook) (e : Entry) : b.Grows (b.print e) :=
  ⟨rfl, rfl, rfl, rfl, fun _ => id⟩

omit [Host] in
theorem entriesAt_print (b : Logbook) (e : Entry) (o : Outlet) :
    (b.print e).entriesAt o = b.entriesAt o ++ sharesAt o [(.console, e)] := by
  cases o with
  | console => rfl
  | file k => exact (List.append_nil _).symm

omit [Host] in
theorem append_grows (b : Logbook) (path : Path) (line : Text) : b.Grows (b.append path line) := by
  refine ⟨rfl, FileTree.base_update .., rfl, rfl, fun k hk => ?_⟩
  unfold append
  dsimp only
  rw [FileTree.get?_update]
  split
  · rwa [Option.isSome_map]
  · exact hk

omit [Host] in
theorem entriesAt_append {path : Path} (h : b.Ready (.file path)) (line : Text) (o : Outlet) :
    (b.append path line).entriesAt o =
      b.entriesAt o ++ sharesAt o [(.file path.kept, .line line)] := by
  cases o with
  | console => exact (List.append_nil _).symm
  | file k =>
    obtain ⟨lines, hlines⟩ := Option.isSome_iff_exists.1 (h path rfl)
    unfold append entriesAt
    dsimp only
    rw [FileTree.get?_update, sharesAt_singleton]
    by_cases hk : k = path.kept
    · cases hk
      rw [if_pos rfl, if_pos rfl, hlines]
      exact List.map_append
    · rw [if_neg hk, if_neg fun h => hk (Outlet.file.inj h).symm, List.append_nil]

/-- A reply in which these shares are written and nothing is lost, and which goes well or not. -/
structure Leaves (b : Logbook) (q : Reply Logbook Unit) (shares : List (Outlet × Entry))
    (well : Bool) : Prop where
  grows : b.Grows q.state
  entriesAt : ∀ o, q.state.entriesAt o = b.entriesAt o ++ sharesAt o shares
  result : q.result = .ok () ↔ well = true

omit [Host] in
theorem leaves_done {shares : List (Outlet × Entry)} (hg : b.Grows b')
    (he : ∀ o, b'.entriesAt o = b.entriesAt o ++ sharesAt o shares) :
    b.Leaves (.done b' ()) shares true :=
  ⟨hg, he, iff_of_true rfl rfl⟩

theorem leaves_fail (b : Logbook) (f : Fault) : b.Leaves (.fail b f) [] false :=
  ⟨.refl b, fun _ => (List.append_nil _).symm, iff_of_false nofun nofun⟩

theorem leaves_report (b : Logbook) (x : Outlet) (r : Record) (f : Fault) :
    b.Leaves (b.report x r f) [(.console, .report x r f)]
      (r.arguments.excess? != some .nesting) := by
  have hg := print_grows b (.report x r f)
  have he := entriesAt_print b (.report x r f)
  unfold report
  split
  · next h => exact ⟨hg, he, iff_of_false nofun (by simp [h])⟩
  · next h => exact ⟨hg, he, iff_of_true rfl (by simpa using h)⟩

theorem leaves_writePlain (b : Logbook) (r : Record) (text : Except Fault Text) :
    b.Leaves (b.writePlain r text) (share none r .console text)
      (goesOn none r .console text) := by
  cases text with
  | ok text => exact leaves_done (print_grows b _) (entriesAt_print b _)
  | error f =>
    unfold writePlain share goesOn isReported
    by_cases h : f.kind = .tooDeep
    · simp only [h, if_true]
      exact leaves_fail b f
    · have hreport : (f.kind != FaultKind.tooDeep) = true := by simpa using h
      simp only [h, hreport, if_false, Option.isNone_none, Bool.true_and, if_true]
      exact leaves_report b .console r f

theorem leaves_writeFile {path : Path} (h : b.Ready (.file path)) (r : Record) :
    b.Leaves (b.writeFile r path)
      (share style r (.file path) (textFor style r (.file path)))
      (goesOn style r (.file path) (textFor style r (.file path))) := by
  unfold writeFile textFor
  cases r.line with
  | error f => exact leaves_report b (.file path) r f
  | ok line =>
    dsimp only
    split
    · exact leaves_report b (.file path) r _
    · exact leaves_done (append_grows b path line) (entriesAt_append h line)

theorem leaves_deliver {h : Handler} (hl : h.threshold ≤ r.level.number) (hr : b.Ready h.outlet) :
    b.Leaves (b.deliver r h) (share b.style r h.outlet (textFor b.style r h.outlet))
      (goesOn b.style r h.outlet (textFor b.style r h.outlet)) := by
  unfold deliver
  rw [if_neg (Nat.not_lt.2 hl)]
  cases hout : h.outlet with
  | file path =>
    rw [hout] at hr
    exact leaves_writeFile hr r
  | console =>
    cases hstyle : b.style with
    | none => exact leaves_writePlain b r r.line
    | some style =>
      dsimp only [textFor]
      cases style r with
      | ok shown => exact leaves_done (print_grows b _) (entriesAt_print b _)
      | error f => exact leaves_fail b f

/-- Deliver a record to handlers, one after the other. -/
def deliverAll (b : Logbook) (r : Record) (handlers : List Handler) : Reply Logbook Unit :=
  handlers.foldl (fun q h => q.andThen fun b _ => b.deliver r h) (.done b ())

/-- What handlers leave is up to the state that a reply has left, and not to its notices. -/
theorem state_foldl_deliver (q : Reply Logbook Unit) (handlers : List Handler) :
    (handlers.foldl (fun q h => q.andThen fun b _ => b.deliver r h) q).state =
      if q.result = .ok () then (q.state.deliverAll r handlers).state else q.state := by
  induction handlers generalizing q with
  | nil => exact (ite_self _).symm
  | cons h rest ih =>
    unfold deliverAll
    rw [List.foldl_cons, List.foldl_cons, ih, ih]
    cases hq : q.result with
    | error f => rw [Reply.andThen_of_error hq, if_neg nofun, if_neg nofun]
    | ok u => rw [Reply.andThen_of_ok hq, Reply.andThen_of_ok (a := ()) rfl, if_pos rfl]; rfl

theorem state_deliverAll_cons (b : Logbook) (r : Record) (h : Handler) (rest : List Handler) :
    (b.deliverAll r (h :: rest)).state =
      if (b.deliver r h).result = .ok () then ((b.deliver r h).state.deliverAll r rest).state
      else (b.deliver r h).state := by
  unfold deliverAll
  rw [List.foldl_cons, state_foldl_deliver, Reply.andThen_of_ok (a := ()) rfl]
  rfl

/-- Handlers write their shares, up to the first one that leaves a fault to the caller. -/
theorem deliverAll_leaves {handlers : List Handler}
    (hl : ∀ h ∈ handlers, h.threshold ≤ r.level.number)
    (hr : ∀ h ∈ handlers, b.Ready h.outlet) :
    b.Grows (b.deliverAll r handlers).state ∧
      ∀ o, (b.deliverAll r handlers).state.entriesAt o =
        b.entriesAt o ++ sharesAt o (sharesOf b.style r handlers) := by
  induction handlers generalizing b with
  | nil => exact ⟨.refl b, fun _ => (List.append_nil _).symm⟩
  | cons h rest ih =>
    obtain ⟨hfirst, hl⟩ := List.forall_mem_cons.1 hl
    obtain ⟨hready, hr⟩ := List.forall_mem_cons.1 hr
    have hh := leaves_deliver (b := b) hfirst hready
    rw [state_deliverAll_cons]
    unfold sharesOf reached
    rw [List.flatMap_cons]
    by_cases hgo : goesOn b.style r h.outlet (textFor b.style r h.outlet) = true
    · obtain ⟨hg, he⟩ := ih hl (b := (b.deliver r h).state) fun x hx path hp =>
        hh.grows.files _ (hr x hx path hp)
      rw [if_pos (hh.result.2 hgo), if_pos hgo]
      refine ⟨hh.grows.trans hg, fun o => ?_⟩
      rw [he, hh.entriesAt, hh.grows.style, sharesAt_append, List.append_assoc]
      rfl
    · rw [if_neg fun hok => hgo (hh.result.1 hok), if_neg hgo]
      refine ⟨hh.grows, fun o => ?_⟩
      rw [hh.entriesAt, List.flatMap_nil, List.append_nil]

theorem write_leaves (hs : b.Sound) (r : Record) :
    b.Grows (b.write r).state ∧
      ∀ o, (b.write r).state.entriesAt o = b.entriesAt o ++ sharesAt o (b.shares r) := by
  have hnone : b.Grows b ∧ ∀ o, b.entriesAt o = b.entriesAt o ++ sharesAt o [] :=
    ⟨.refl b, fun _ => (List.append_nil _).symm⟩
  unfold write shares
  split
  · exact hnone
  · next hl =>
    split
    · unfold lastResort
      split
      · exact hnone
      · have hw := leaves_writePlain b r r.message
        exact ⟨hw.grows, hw.entriesAt⟩
    · refine deliverAll_leaves (fun h hh => ?_) hs.ready
      rw [hs.atThreshold h hh]
      exact Nat.not_lt.1 hl

theorem reached_of_textFor {handlers : List Handler} {text : Outlet → Text}
    (h : ∀ x ∈ handlers, textFor style r x.outlet = .ok (text x.outlet)) :
    reached style r handlers = handlers := by
  induction handlers with
  | nil => rfl
  | cons x rest ih =>
    obtain ⟨hx, hrest⟩ := List.forall_mem_cons.1 h
    have hgo : goesOn style r x.outlet (.ok (text x.outlet)) = true := rfl
    rw [reached, hx, if_pos hgo, ih hrest]

theorem sharesAt_of_textFor {handlers : List Handler} {text : Outlet → Text}
    (h : ∀ x ∈ handlers, textFor style r x.outlet = .ok (text x.outlet)) (o : Outlet) :
    sharesAt o (sharesOf style r handlers) =
      (handlers.filter (·.outlet.kept = o)).map fun x => .line (text x.outlet) := by
  unfold sharesOf
  rw [reached_of_textFor h]
  induction handlers with
  | nil => rfl
  | cons x rest ih =>
    obtain ⟨hx, hrest⟩ := List.forall_mem_cons.1 h
    rw [List.flatMap_cons, sharesAt_append, ih hrest, hx, share, sharesAt_singleton]
    by_cases ho : x.outlet.kept = o
    · rw [if_pos ho, List.filter_cons_of_pos (by simpa using ho)]
      rfl
    · rw [if_neg ho, List.filter_cons_of_neg (by simpa using ho)]
      rfl

theorem entriesAt_write_of_textFor (hs : b.Sound) (hne : b.handlers ≠ []) {text : Outlet → Text}
    (h : ∀ x ∈ b.handlers, textFor b.style r x.outlet = .ok (text x.outlet)) (o : Outlet) :
    (b.write r).state.entriesAt o = b.entriesAt o ++
      if r.level.number < b.threshold then []
      else (b.handlers.filter (·.outlet.kept = o)).map fun x => .line (text x.outlet) := by
  rw [(write_leaves hs r).2 o, shares, if_neg hne]
  split
  · rfl
  · rw [sharesAt_of_textFor h]

/-! ### Steps and runs -/

theorem state_step_log (b : Logbook) (word logger template : Text) (created : Int)
    (args : List Value) :
    let s := LogStep.log word logger created template args
    (b.step s).state =
      match s.record?, (b.configure .standard).result with
      | some r, .ok _ => ((b.configure .standard).state.write r).state
      | _, _ => (b.configure .standard).state := by
  intro s
  show (b.logAt word logger created template args).state = _
  unfold logAt s LogStep.record?
  dsimp only
  cases (Level.numberOfWord word).map Level.ofNumber? with
  | error f =>
    exact Reply.andThen_keeps (P := fun c => c = (b.configure .standard).state) rfl fun _ _ hc => hc
  | ok level =>
    cases level with
    | none => rfl
    | some level =>
      dsimp only [log]
      cases h : (b.configure .standard).result with
      | ok u => rw [Reply.andThen_of_ok h]
      | error f => rw [Reply.andThen_of_error h]

/-- A step keeps the handlers in order, sets the threshold that it says, and brings its entries. -/
structure Steps (b : Logbook) (s : LogStep) (b' : Logbook) : Prop where
  sound : b'.Sound
  style : b'.style = b.style
  base : b'.files.base = b.files.base
  threshold : b'.threshold = (b.applied s).getD b.threshold
  entriesAt : ∀ o, b'.entriesAt o = b.entriesAt o ++ b.brings s o

theorem Sound.step (hs : b.Sound) (s : LogStep) : b.Steps s (b.step s).state := by
  cases s with
  | configure q =>
    have hk := hs.keeps_configure q
    refine ⟨hk.sound, hk.style, hk.base, (hs.threshold_configure q).trans ?_, fun o => ?_⟩
    · unfold applied
      split <;> rfl
    · exact (hk.entriesAt o).trans (List.append_nil _).symm
  | apply word file =>
    have hk := hs.keeps_apply word file
    exact ⟨hk.sound, hk.style, hk.base, hs.threshold_apply word file, fun o =>
      (hk.entriesAt o).trans (List.append_nil _).symm⟩
  | log word logger created template args =>
    have hk := hs.keeps_configure .standard
    have ht : (b.configure .standard).state.threshold =
        (b.applied (.log word logger created template args)).getD b.threshold := by
      refine (hs.threshold_configure .standard).trans ?_
      unfold applied
      split <;> rfl
    rw [state_step_log]
    -- Nothing comes of the step but the setting up, unless it makes a record.
    have hnone : (∀ o, b.brings (.log word logger created template args) o = []) →
        b.Steps (.log word logger created template args) (b.configure .standard).state :=
      fun hb => ⟨hk.sound, hk.style, hk.base, ht, fun o => by
        rw [hb o, List.append_nil, hk.entriesAt o]⟩
    split
    · next r u hrec hres =>
      obtain ⟨hgrows, hentries⟩ := write_leaves hk.sound r
      refine ⟨hk.sound.grows hgrows, hgrows.style.trans hk.style, hgrows.base.trans hk.base,
        hgrows.threshold.trans ht, fun o => ?_⟩
      rw [hentries o, hk.entriesAt o, brings, hrec, hres]
    · next hnot =>
      refine hnone fun o => ?_
      unfold brings
      split
      · next r u hrec hres => exact (hnot r u hrec hres).elim
      · rfl

theorem Sound.run (hs : b.Sound) (steps : List LogStep) :
    (b.run steps).Sound ∧ (b.run steps).style = b.style ∧
      (b.run steps).files.base = b.files.base ∧
      (b.run steps).threshold = (b.appliedAll steps).getLast?.getD b.threshold ∧
      ∀ o, (b.run steps).entriesAt o = b.entriesAt o ++ b.entries o steps := by
  induction steps generalizing b with
  | nil => exact ⟨hs, rfl, rfl, rfl, fun o => (List.append_nil _).symm⟩
  | cons s rest ih =>
    have hstep := hs.step s
    obtain ⟨hsound, hstyle, hbase, hthreshold, hentries⟩ := ih hstep.sound
    refine ⟨hsound, hstyle.trans hstep.style, hbase.trans hstep.base, hthreshold.trans ?_,
      fun o => (hentries o).trans ?_⟩
    · rw [hstep.threshold, appliedAll, List.getLast?_append]
      cases b.applied s <;> cases ((b.step s).state.appliedAll rest).getLast? <;> rfl
    · rw [hstep.entriesAt, entries, List.append_assoc]

end AnyHost

theorem Sound.countP_console (hs : b.Sound) : b.handlers.countP (·.outlet = .console) ≤ 1 := by
  have hrest := hs.rest_file
  cases hb : b.handlers with
  | nil => exact Nat.zero_le 1
  | cons h rest =>
    rw [hb] at hrest
    have hnone : rest.countP (·.outlet = .console) = 0 :=
      List.countP_eq_zero.2 fun x hx hc => hrest x hx (of_decide_eq_true hc)
    rw [List.countP_cons, hnone, Nat.zero_add]
    split <;> omega

end Logbook

end QuadraticVoting.Log
