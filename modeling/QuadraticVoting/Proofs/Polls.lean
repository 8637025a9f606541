import QuadraticVoting.Desk
import QuadraticVoting.Proofs.Agenda
import QuadraticVoting.Proofs.Creations

/-!
# Polls

A desk opens and closes polls, and nothing that is asked of a proposal can get in its way: the
window of a poll is one that all limits allow (`Assembly.firstFault_poll`), and a clock that is past
the last block of a proposal lets root close it (`Chamber.closeProposal_root`). What else is done at
the desk, or to the chamber behind it, does not matter (`Desk.run_reachable`).

What may get in the way is an integer that has no bound and is too large to be written: the id or
the last block of a poll when it is opened, its id or the block after its last when it is closed.
`Desk.run_resolves` says how.
-/

namespace QuadraticVoting

/-! ### Steps at a desk -/

/-- What can be done at a desk: its own four calls, and anything to the chamber behind it. -/
inductive DeskStep
  | addVoter (who : Account) (amount : Int)
  | createProposal (data : Payload)
  | vote (p : Int) (voter : Account) (aye weight : Value)
  | closeVote (p : Int)
  | behind (s : LedgerStep)
deriving DecidableEq

namespace Desk

variable [Host] {d : Desk} {creator : Account} {limits : Limits} {clock : Clock}

/-- A desk of some creator over an empty chamber. -/
def opened (limits : Limits) (clock : Clock) (symbol : Text) (opening : List (Account × Int))
    (creator : Account) : Desk :=
  ⟨.empty limits clock (Ledger.create symbol opening).state, creator⟩

def step (d : Desk) : DeskStep → Desk
  | .addVoter who n => (d.addVoter who n).state
  | .createProposal data => (d.createProposal data).state
  | .vote p voter aye weight => (d.vote p voter aye weight).state
  | .closeVote p => (d.closeVote p).state
  | .behind s => d.withChamber (d.chamber.ledgerStep s).state

def run (d : Desk) (steps : List DeskStep) : Desk := steps.foldl step d

/-- A desk of some creator over a chamber that a host can come to. -/
structure Reachable (creator : Account) (limits : Limits) (clock : Clock) (d : Desk) : Prop where
  creator_eq : d.creator = creator
  chamber : d.chamber.Reachable limits clock

/-- What no step behind a desk breaks, no step at the desk breaks. -/
theorem step_keeps {P : Desk → Prop}
    (hP : ∀ e s, P e → P (e.withChamber (e.chamber.ledgerStep s).state)) (h : P d)
    (s : DeskStep) : P (d.step s) := by
  have hcall : ∀ e call, P e → P (e.withChamber (e.chamber.perform call).state) :=
    fun e call => hP e (.step (.call call))
  cases s with
  | addVoter who n =>
    exact Reply.andThen_keeps (P := P) (hcall d (.registerVoter .root who) h) fun e _ =>
      hP e (.mint who n)
  | createProposal data =>
    refine Reply.andThen_keeps (P := P) (hcall d (.registerVoter .root d.creator) h)
      fun e _ h => ?_
    exact Reply.check_keeps (P := P) h fun o => hcall e (.createProposal o _) h
  | vote p voter aye weight =>
    exact Reply.check_keeps (P := P) h fun o => hcall d (.vote o p aye weight) h
  | closeVote p =>
    refine Reply.check_keeps (P := P) h fun x => ?_
    refine Reply.andThen_keeps (P := P) ?_ fun e _ => hcall e (.closeProposal .root p)
    split
    · exact hP d (.step (.setBlock (x.stop + 1))) h
    · exact h
  | behind s => exact hP d s h

theorem run_keeps {P : Desk → Prop}
    (hP : ∀ e s, P e → P (e.withChamber (e.chamber.ledgerStep s).state)) (h : P d)
    (steps : List DeskStep) : P (d.run steps) := by
  induction steps generalizing d with
  | nil => exact h
  | cons s rest ih => exact ih (step_keeps hP h s)

theorem run_reachable (h : d.Reachable creator limits clock) (steps : List DeskStep) :
    (d.run steps).Reachable creator limits clock := by
  refine run_keeps (fun e s h => ⟨h.creator_eq, ?_⟩) h steps
  cases s with
  | step s => exact h.chamber.step s
  | mint a n | lock a n | unlock a n => exact h.chamber.host _

end Desk

/-! ### Opening -/

theorem Value.isWritable_mono {m n : Int} (h0 : 0 ≤ m) (hle : m ≤ n) (hn : isWritable n = true) :
    isWritable m = true := by
  rw [isWritable, decide_eq_true_eq] at hn ⊢
  omega

theorem Payload.firstFault_conditions_iff {p : Payload} {limit : Int} :
    firstFault (p.conditions limit) = none ↔ ∃ l, p.toBytes = .ok l ∧ (l.length : Int) ≤ limit := by
  rw [firstFault_eq_none_iff, conditions]
  cases p.toBytes with
  | error f => simp
  | ok l => simp

/-- What a desk drafts for a poll. -/
def Draft.poll (limits : Limits) (now : Int) (data : Payload) : Draft :=
  ⟨data, .kind .publicVote, .accounts [], now, now + limits.maximum⟩

namespace Assembly

variable {s : Assembly} {creator : Account}

/-- A poll as it is stored. -/
def poll (s : Assembly) (creator : Account) (data : List UInt8) : Proposal where
  id := s.nextId
  creator := creator
  data := data
  kind := .publicVote
  accounts := .empty
  start := s.now
  stop := s.now + s.limits.maximum

theorem firstFault_windowConditions (limits : Limits) (now : Int) :
    firstFault (windowConditions limits now (now + limits.maximum) now) = none := by
  have hone := limits.one_le_minimum
  have hle := limits.minimum_le_maximum
  rw [firstFault_eq_none_iff]
  simp only [windowConditions, List.forall_mem_cons, decide_eq_true_eq]
  refine ⟨?_, ?_, ?_, ?_, ?_, nofun⟩ <;> omega

theorem firstFault_poll (hg : creator.isGiven = true) (hm : creator ∈ s.registry.voters)
    (data : Payload) :
    firstFault (s.createConditions ⟨creator, false⟩ (.poll s.limits s.now data)) =
      firstFault (data.conditions s.limits.payload) := by
  have hlist : firstFault (AccountList.conditions s.limits.accounts (.accounts [])) = none := by
    rw [firstFault_eq_none_iff]
    simp [AccountList.conditions, ListArg.given, ListArg.isText]
  have hsigned : (!false && creator.isGiven) = true := hg
  have hregistered : s.registry.contains creator = true := Registry.contains_iff.2 hm
  have hkind : (KindArg.kind .publicVote).kind?.isSome = true := rfl
  unfold createConditions Draft.poll
  rw [firstFault_cons, if_pos hsigned, firstFault_cons, if_pos hregistered, firstFault_append,
    firstFault_append, hlist, Option.none_or, firstFault_cons, if_pos hkind,
    firstFault_windowConditions, Option.or_none]

theorem stageAt_poll (data : List UInt8) : (s.poll creator data).stageAt s.now = .active := by
  have hpos := s.limits.one_le_minimum.trans s.limits.minimum_le_maximum
  refine Proposal.stageAt_eq_active_iff.2 ⟨rfl, Int.le_refl _, ?_⟩
  show s.now ≤ s.now + s.limits.maximum
  omega

end Assembly

namespace Chamber

variable {σ : Type} {c : Chamber σ}

/-- The chamber with an account registered, and the event of that if it is a new one. -/
def registered (c : Chamber σ) (who : Account) : Chamber σ :=
  c.withAssembly { c.assembly with
    registry := c.assembly.registry.add who
    journal := c.assembly.journal ++
      if who ∈ c.assembly.registry.voters then [] else [.voterRegistered who] }

theorem mem_registered (c : Chamber σ) (who : Account) :
    who ∈ (c.registered who).assembly.registry.voters := Registry.mem_add.2 (.inr rfl)

theorem registered_of_mem {who : Account} (h : who ∈ c.assembly.registry.voters) :
    c.registered who = c := by
  have hsame : c.assembly.registry.add who = c.assembly.registry := dif_pos h
  simp [registered, withAssembly, h, hsame]

/-- Root registers any account that is given; one that is registered already stays so. -/
theorem registerVoter_root [Host] (c : Chamber σ) {who : Account} (hg : who.isGiven = true) :
    ∃ new, (c.registerVoter .root who).result = .ok new ∧
      (c.registerVoter .root who).state = c.registered who := by
  by_cases hm : who ∈ c.assembly.registry.voters
  · rw [registered_of_mem hm]
    refine ⟨false, ?_, ?_⟩ <;>
      simp [registerVoter, conclude, onRegistry, Registry.register, Origin.requireFor, Origin.root,
        append, Assembly.append, withAssembly, hg, hm]
  · refine ⟨true, ?_, ?_⟩ <;>
      simp [registerVoter, registered, conclude, onRegistry, Registry.register, Origin.requireFor,
        Origin.root, append, Assembly.append, withAssembly, hg, hm]

theorem tellsCreation_poll (c : Chamber σ) (data : Payload) :
    c.tellsCreation (.poll c.assembly.limits c.assembly.now data) =
      (Value.isWritable c.assembly.nextId &&
        Value.isWritable (c.assembly.now + c.assembly.limits.maximum)) := by
  have hpos := c.assembly.limits.one_le_minimum.trans c.assembly.limits.minimum_le_maximum
  have hnow : Value.isWritable (c.assembly.now + c.assembly.limits.maximum) = true →
      Value.isWritable c.assembly.now = true :=
    Value.isWritable_mono c.assembly.clock.nonneg (by omega)
  unfold tellsCreation Draft.poll
  rw [Bool.and_assoc, Bool.and_eq_right_iff_imp.2 hnow]

variable [Host]

theorem registerVoter_root_of_not_given (c : Chamber σ) {who : Account}
    (hg : who.isGiven = false) : c.registerVoter .root who = .fail c .voterRequired := by
  unfold registerVoter onRegistry Registry.register
  rw [hg]
  rfl

variable [FundLock σ]

/-- A poll is opened if its payload meets its conditions, and the caller is told so if its id and
its window can be written. -/
theorem createProposal_poll (h : c.assembly.Orderly) {creator : Account}
    (hg : creator.isGiven = true) (hm : creator ∈ c.assembly.registry.voters) (data : Payload) :
    let s := c.assembly
    let draft := Draft.poll s.limits s.now data
    let r := c.createProposal ⟨creator, false⟩ draft
    (∀ f, firstFault (data.conditions s.limits.payload) = some f → r.result = .error f.told) ∧
      ∀ l, data.toBytes = .ok l → (l.length : Int) ≤ s.limits.payload →
        r.result = (if c.tellsCreation draft then .ok s.nextId else .error (.excess .integer)) ∧
        r.state.assembly.proposal? s.nextId = some (s.poll creator l) ∧
        r.state.assembly.now = s.now := by
  intro s draft r
  obtain ⟨hstops, hmakes⟩ := c.perform_create h ⟨creator, false⟩ draft
  rw [Assembly.firstFault_poll hg hm data] at hstops hmakes
  refine ⟨fun f hf => ?_, fun l hl hle => ?_⟩
  · exact Reply.result_of_map (fun _ _ => Answer.id.inj) (hstops f hf).1
  · obtain ⟨l', kind, hl', hkind, hr, hs⟩ :=
      hmakes (Payload.firstFault_conditions_iff.2 ⟨l, hl, hle⟩)
    cases hl.symm.trans hl'
    cases hkind
    refine ⟨Reply.result_of_map (fun _ _ => Answer.id.inj) (hr.trans ?_), ?_, ?_⟩
    · split <;> rfl
    · have hnew := s.proposal?_insert (s.poll creator l) (s.nextId + 1) s.nextId
      exact (congrArg (fun e : Chamber σ => e.assembly.proposal? s.nextId) hs).trans
        (hnew.trans (if_pos rfl))
    · exact (congrArg (fun e : Chamber σ => e.assembly.now) hs).trans rfl

end Chamber

/-! ### Closing -/

/-- Whether a proposal has not come to its end at a block height. -/
def Proposal.waitsAt (x : Proposal) (now : Int) : Bool :=
  x.stageAt now = .pending || x.stageAt now = .active

namespace Proposal

variable {x : Proposal} {now : Int}

theorem waitsAt_eq_false_iff :
    x.waitsAt now = false ↔ x.stageAt now = .ended ∨ x.isClosed = true := by
  rw [← @stageAt_eq_closed_iff x now]
  unfold waitsAt
  cases x.stageAt now <;> simp

theorem waitsAt_iff (hwindow : x.start ≤ x.stop) :
    x.waitsAt now = true ↔ x.isClosed = false ∧ now ≤ x.stop := by
  have hpending := @isPendingAt_iff x now
  have hactive := @stageAt_eq_active_iff x now
  rw [isPendingAt, decide_eq_true_eq] at hpending
  unfold waitsAt
  rw [Bool.or_eq_true, decide_eq_true_eq, decide_eq_true_eq, hpending, hactive, ← and_or_left]
  exact and_congr_right fun _ => by omega

theorem closed_eq (x : Proposal) (h : x.isClosed = true) : { x with status := .closed } = x := by
  rw [← of_decide_eq_true h]

end Proposal

namespace Chamber

/-- A chamber in which a proposal has been closed or not, with whatever the clock and the journal
came to say. -/
structure Resolved {σ : Type} (c : Chamber σ) (p : Int) (x : Proposal) (closes : Bool)
    (c' : Chamber σ) : Prop where
  assembly_eq : c'.assembly = { c.assembly with
    clock := c'.assembly.clock
    proposals := c'.assembly.proposals
    journal := c'.assembly.journal }
  proposal_eq : ∀ q, c'.assembly.proposal? q =
    if q = p ∧ closes = true then some { x with status := .closed } else c.assembly.proposal? q
  funds_eq : c'.funds = c.funds

/-- The chamber at another block height. -/
def withClock {σ : Type} (c : Chamber σ) (clock : Clock) : Chamber σ :=
  c.withAssembly { c.assembly with clock := clock }

variable {σ : Type} [FundLock σ] {c : Chamber σ} {p : Int} {x : Proposal}

/-- Root can close whatever does not wait for its end, at any block height. -/
theorem closeProposal_root [Host] (h : c.assembly.Orderly) (hx : c.assembly.proposal? p = some x)
    {clock : Clock} (hw : x.waitsAt clock.block = false) :
    let r := (c.withClock clock).closeProposal .root p
    r.result = (if Value.isWritable p then .ok x.tally.hasMajority else .error (.excess .integer)) ∧
      c.Resolved p x true r.state ∧ r.state.assembly.clock = clock := by
  intro r
  have hclock : r.state.assembly.clock = clock :=
    (c.withClock clock).perform_clock (.closeProposal .root p)
  have hover := Proposal.waitsAt_eq_false_iff.1 hw
  cases hc : x.isClosed with
  | true =>
    have hclosed : (c.withClock clock).assembly.closed? p = some x :=
      Assembly.closed?_eq_some_iff.2 ⟨hx, hc⟩
    have hr := result_perform_close_ite hclosed (o := .root) rfl
    have hs : r.state = c.withClock clock := state_perform_close hclosed .root
    refine ⟨Reply.result_of_map (fun _ _ => Answer.flag.inj) (hr.trans (by split <;> rfl)), ?_,
      hclock⟩
    rw [hs]
    refine ⟨rfl, fun q => ?_, rfl⟩
    split
    · next hq =>
      rw [hq.1, x.closed_eq hc]
      exact hx
    · rfl
  | false =>
    have hcheck : (c.withClock clock).assembly.checkClose .root p clock.block = .ok x :=
      Assembly.checkClose_eq_ok_iff.2 ⟨hx, rfl, hover⟩
    have hchange := Change.closed hcheck hc
    have htold := (hchange.writable_iff ⟨h.proposals, h.ballots⟩).trans List.forall_mem_singleton
    obtain ⟨hr, hs⟩ := hchange.perform_ite nofun htold
    replace hs : r.state = _ := hs
    refine ⟨Reply.result_of_map (fun _ _ => Answer.flag.inj) (hr.trans (by split <;> rfl)), ?_,
      hclock⟩
    rw [hs]
    refine ⟨rfl, fun q => ?_, rfl⟩
    simp only [and_true]
    exact c.assembly.proposal?_putProposal p q _

end Chamber

namespace Desk

variable {d : Desk} {creator : Account} {limits : Limits} {clock : Clock} {p : Int} {x : Proposal}

section AnyHost

variable [Host]

theorem createProposal_eq (d : Desk) (hg : d.creator.isGiven = true) (data : Payload) :
    let s := d.chamber.assembly
    let r := (d.chamber.registered d.creator).createProposal ⟨d.creator, false⟩
      (.poll s.limits s.now data)
    (d.createProposal data).result = r.result ∧
      (d.createProposal data).state = d.withChamber r.state := by
  intro s r
  obtain ⟨new, hnew, hstate⟩ := d.chamber.registerVoter_root hg
  have hsigned : Origin.signed d.creator = .ok ⟨d.creator, false⟩ := if_pos hg
  unfold createProposal
  rw [Reply.andThen_of_ok (r := d.via _) hnew, via, Reply.state_within, hstate]
  dsimp only [withChamber]
  rw [hsigned]
  exact ⟨rfl, rfl⟩

/-- How opening a poll goes, whatever has been done at the desk before. -/
theorem createProposal_exact (h : d.Reachable creator limits clock) (hg : creator.isGiven = true)
    (data : Payload) :
    let s := d.chamber.assembly
    let r := d.createProposal data
    let told := Value.isWritable s.nextId && Value.isWritable (s.now + limits.maximum)
    (∀ f, firstFault (data.conditions limits.payload) = some f → r.result = .error f.told) ∧
      ∀ l, data.toBytes = .ok l → (l.length : Int) ≤ limits.payload →
        r.result = (if told then .ok s.nextId else .error (.excess .integer)) ∧
        r.state.chamber.assembly.proposal? s.nextId = some (s.poll creator l) ∧
        r.state.chamber.assembly.now = s.now := by
  have ho := h.chamber.orderly
  obtain rfl := h.creator_eq
  obtain rfl := h.chamber.limits_eq
  intro s r told
  -- The registration leaves all that the poll is drafted from as it was.
  have hpoll := Chamber.createProposal_poll (c := d.chamber.registered d.creator)
    ⟨ho.proposals, ho.ballots⟩ hg (d.chamber.mem_registered d.creator) data
  have htold := (d.chamber.registered d.creator).tellsCreation_poll data
  obtain ⟨hresult, hstate⟩ := d.createProposal_eq hg data
  rw [hresult, hstate, show told = _ from htold.symm]
  exact hpoll

theorem via_setBlock (d : Desk) {n : Int} (hn : 0 ≤ n) : d.via (d.chamber.setBlock n) =
    .announce (d.withChamber (d.chamber.withClock ⟨n, hn⟩)) (.clockSet n) () := by
  have hset : d.chamber.assembly.clock.set n = .announce ⟨n, hn⟩ (.clockSet n) () :=
    dif_neg (Int.not_lt.2 hn)
  rw [via, Chamber.setBlock, Chamber.onClock, hset, Reply.within_announce, Reply.within_announce]
  rfl

/-- A move of the clock past the end of a proposal that waits for it. -/
def toEnd (d : Desk) (x : Proposal) : Reply Desk Unit :=
  if x.waitsAt d.chamber.assembly.now then d.via (d.chamber.setBlock (x.stop + 1)) else .done d ()

/-- Whether the clock can be moved to the end of a proposal, and be told so. -/
def reachesEnd (d : Desk) (x : Proposal) : Bool :=
  !x.waitsAt d.chamber.assembly.now || Value.isWritable (x.stop + 1)

/-- However it is told, the clock comes to stand where the proposal does not wait any more. -/
theorem toEnd_exact (d : Desk) (hwindow : x.start ≤ x.stop) :
    let now := d.chamber.assembly.now
    ∃ clock, (d.toEnd x).state = d.withChamber (d.chamber.withClock clock) ∧
      clock.block = (if x.waitsAt now then x.stop + 1 else now) ∧
      x.waitsAt clock.block = false ∧
      (d.toEnd x).result = if d.reachesEnd x then .ok () else .error (.excess .integer) := by
  intro now
  unfold toEnd reachesEnd
  cases hw : x.waitsAt now with
  | false => exact ⟨d.chamber.assembly.clock, rfl, rfl, hw, rfl⟩
  | true =>
    obtain ⟨-, hnow⟩ := (Proposal.waitsAt_iff hwindow).1 hw
    have hn : 0 ≤ x.stop + 1 := by
      have hnonneg : 0 ≤ now := d.chamber.assembly.clock.nonneg
      omega
    have hpast : x.waitsAt (x.stop + 1) = false := by
      rw [Bool.eq_false_iff, Ne, Proposal.waitsAt_iff hwindow]
      omega
    rw [if_pos rfl, via_setBlock d hn]
    refine ⟨⟨_, hn⟩, Reply.state_announce .., rfl, hpast, ?_⟩
    have hnotice : (∀ k ∈ (Log.Notice.clockSet (x.stop + 1)).integers, Value.isWritable k = true) ↔
        Value.isWritable (x.stop + 1) = true := List.forall_mem_singleton
    cases hm : Value.isWritable (x.stop + 1) with
    | true => rw [Reply.announce_of_isWritable (hnotice.2 hm)]; rfl
    | false =>
      refine Reply.result_announce_of_not_isWritable (hnotice.not.2 ?_) ..
      rw [hm]
      exact Bool.false_ne_true

theorem closeVote_eq (hx : d.chamber.assembly.proposal? p = some x) :
    d.closeVote p = (d.toEnd x).andThen fun e _ => e.via (e.chamber.closeProposal .root p) := by
  unfold closeVote
  rw [Assembly.requireProposal_eq_ok_iff.2 hx]
  rfl

/-- How closing a proposal goes: first the clock is moved past its end, if it waits for that, and
then root closes it. -/
theorem closeVote_exact (h : d.chamber.assembly.Orderly) (hwindow : x.start ≤ x.stop)
    (hx : d.chamber.assembly.proposal? p = some x) :
    let s := d.chamber.assembly
    let r := d.closeVote p
    r.result = (if d.reachesEnd x && Value.isWritable p then .ok x.tally.hasMajority
      else .error (.excess .integer)) ∧
      d.chamber.Resolved p x (d.reachesEnd x) r.state.chamber ∧
      r.state.chamber.assembly.now = if x.waitsAt s.now then x.stop + 1 else s.now := by
  intro s r
  have hr : r = (d.toEnd x).andThen fun e _ => e.via (e.chamber.closeProposal .root p) :=
    closeVote_eq hx
  obtain ⟨clock, hstate, hblock, hpast, hresult⟩ := d.toEnd_exact hwindow
  cases hm : d.reachesEnd x with
  | true =>
    rw [hm, if_pos rfl] at hresult
    obtain ⟨hanswer, hresolved, hclock⟩ := Chamber.closeProposal_root h hx hpast
    rw [hr, Reply.andThen_of_ok hresult, hstate]
    exact ⟨hanswer, hresolved, (congrArg Clock.block hclock).trans hblock⟩
  | false =>
    rw [hm, if_neg Bool.false_ne_true] at hresult
    rw [hr, Reply.andThen_of_error hresult, hstate]
    refine ⟨rfl, ⟨rfl, fun q => ?_, rfl⟩, hblock⟩
    exact (if_neg fun hq => Bool.false_ne_true hq.2).symm

/-! ### Any number of steps -/

/-- A desk with a creator that is given, over a chamber with any limits, after anything that can be
done at it or behind it. A poll is opened if and only if its payload has bytes, not too many of
them, and its id and its last block can be written; it is public and can be voted on at once. Any
stored proposal can be closed: the clock moves past its end if it waits for that, and never back,
the answer is whether aye has the majority, and nothing changes but its status, the clock and the
journal. This takes an id that can be written and, if the clock has to move, a block to move to
that can be. -/
theorem run_resolves (limits : Limits) (clock : Clock) (symbol : Text)
    (opening : List (Account × Int)) (creator : Account) (hg : creator.isGiven = true)
    (steps : List DeskStep) :
    let d := (opened limits clock symbol opening creator).run steps
    let s := d.chamber.assembly
    (∀ data : Payload,
      let r := d.createProposal data
      let s' := r.state.chamber.assembly
      let told := Value.isWritable s.nextId && Value.isWritable (s.now + limits.maximum)
      ((∃ n, r.result = .ok n) ↔
        (∃ l, data.toBytes = .ok l ∧ l.length ≤ limits.payload) ∧ told = true) ∧
      ∀ l, data.toBytes = .ok l → l.length ≤ limits.payload →
        r.result = (if told then .ok s.nextId else .error (.excess .integer)) ∧
        s'.proposal? s.nextId = some ⟨s.nextId, creator, l, .publicVote, .empty, s.now,
          s.now + limits.maximum, .pending, ⟨0, 0⟩⟩ ∧
        ∀ x, s'.proposal? s.nextId = some x → x.stageAt s'.now = .active) ∧
    ∀ p x, s.proposal? p = some x →
      let r := d.closeVote p
      let s' := r.state.chamber.assembly
      let waits := x.waitsAt s.now
      let told := !waits || Value.isWritable (x.stop + 1)
      r.result = (if told && Value.isWritable p then .ok (decide (x.tally.total < 2 * x.tally.aye))
        else .error (.excess .integer)) ∧
      (∀ q, s'.proposal? q =
        if q = p ∧ told = true then some { x with status := .closed } else s.proposal? q) ∧
      s' = { s with clock := s'.clock, proposals := s'.proposals, journal := s'.journal } ∧
      r.state.chamber.funds = d.chamber.funds ∧
      s'.now = (if waits then x.stop + 1 else s.now) ∧ s.now ≤ s'.now := by
  intro d s
  have hstart : (opened limits clock symbol opening creator).Reachable creator limits clock :=
    ⟨rfl, .start _⟩
  have hd : d.Reachable creator limits clock := run_reachable hstart steps
  have hlimits : s.limits = limits := hd.chamber.limits_eq
  refine ⟨fun data => ?_, fun p x hx => ?_⟩
  · intro r s' told
    obtain ⟨hstops, hmakes⟩ := createProposal_exact hd hg data
    refine ⟨?_, fun l hl hle => ?_⟩
    · have hfits : firstFault (data.conditions limits.payload) = none ↔
          ∃ l, data.toBytes = .ok l ∧ l.length ≤ limits.payload := by
        simp only [Payload.firstFault_conditions_iff, Int.ofNat_le]
      rw [← hfits]
      refine exists_ok_iff hstops fun hnone => ?_
      obtain ⟨l, hl, hle⟩ := hfits.1 hnone
      exact ⟨_, (hmakes l hl (Int.ofNat_le.2 hle)).1⟩
    · obtain ⟨hanswer, hstored, hnow⟩ := hmakes l hl (Int.ofNat_le.2 hle)
      refine ⟨hanswer, hstored.trans ?_, fun x hx => ?_⟩
      · rw [Assembly.poll, hlimits]
        rfl
      · cases hstored.symm.trans hx
        exact (congrArg _ hnow).trans (s.stageAt_poll l)
  · intro r s' waits told
    have hwindow := Int.le_of_lt (hd.chamber.within hx).start_lt_stop
    obtain ⟨hanswer, hresolved, hnow⟩ := closeVote_exact hd.chamber.orderly hwindow hx
    rw [Tally.hasMajority_eq] at hanswer
    refine ⟨hanswer, hresolved.proposal_eq, hresolved.assembly_eq, hresolved.funds_eq, hnow, ?_⟩
    show s.now ≤ r.state.chamber.assembly.now
    rw [hnow]
    split
    · next hw => exact Int.le_trans ((Proposal.waitsAt_iff hwindow).1 hw).2 (by omega)
    · exact Int.le_refl _

end AnyHost

/-- Bob decides a poll of ann's; another one is opened, and the first is closed before its end. -/
theorem run_resolves_decided :
    let d := (opened .standard .zero Chamber.Round.symbol [] Chamber.Round.ann).run [
      .createProposal (.bytes [1]), .addVoter Chamber.Round.bob 20,
      .vote 0 Chamber.Round.bob (.bool true) (.int 3)]
    Chamber.Round.ann.isGiven = true ∧ (∃ n, (d.createProposal (.bytes [2])).result = .ok n) ∧
      (d.closeVote 0).result = .ok true ∧ (d.closeVote 0).state.chamber.assembly.now = 1001 := by
  intro d
  have hg : Chamber.Round.ann.isGiven = true := by decide
  obtain ⟨hopens, hcloses⟩ := run_resolves .standard .zero Chamber.Round.symbol []
    Chamber.Round.ann hg [.createProposal (.bytes [1]), .addVoter Chamber.Round.bob 20,
      .vote 0 Chamber.Round.bob (.bool true) (.int 3)]
  have hx : d.chamber.assembly.proposal? 0 =
      some ⟨0, Chamber.Round.ann, [1], .publicVote, .empty, 0, 1000, .pending, ⟨9, 9⟩⟩ := by decide
  obtain ⟨hanswer, -, -, -, hnow, -⟩ := hcloses 0 _ hx
  refine ⟨hg, (hopens (.bytes [2])).1.2 ⟨⟨[2], rfl, by decide⟩, by decide⟩, ?_, ?_⟩
  · exact hanswer.trans (by decide)
  · exact hnow.trans (by decide)

theorem one_le_longest : 1 ≤ Value.writtenBound - 1 := by decide +kernel

/-- Limits under which the block after a poll can have more digits than can be written. -/
def longLimits : Limits :=
  { Chamber.wideLimits with
    maximum := Value.writtenBound - 1
    minimum_le_maximum := one_le_longest }

/-- A poll that is open and stays open: the clock is moved past its end, but it cannot be told so,
and the close stops there. -/
theorem end_is_not_told :
    let d := (opened longLimits .zero Chamber.Round.symbol [] Chamber.Round.ann).run
      [.createProposal (.bytes [])]
    let r := d.closeVote 0
    let poll : Proposal := ⟨0, Chamber.Round.ann, [], .publicVote, .empty, 0,
      Value.writtenBound - 1, .pending, ⟨0, 0⟩⟩
    d.chamber.assembly.proposal? 0 = some poll ∧ r.result = .error (.excess .integer) ∧
      r.state.chamber.assembly.proposal? 0 = some poll ∧
      r.state.chamber.assembly.now = Value.writtenBound := by
  decide +kernel

end Desk

end QuadraticVoting
