import Mathlib.Data.List.TakeWhile
import QuadraticVoting.Assembly.Run
import QuadraticVoting.Proofs.Admission

/-!
# The course of a call

Every call takes one of a few courses (`Chamber.Course`). It fails its checks (`Chamber.checks`), or
it has nothing to do, or the funds stop it, and then the assembly stays as it was. Or it makes a
change (`Chamber.Change`), and then its events are in the journal if all of its notices can be
written; if one of them cannot, the change is made and the call fails all the same. A course also
says which notices are given, after those of the funds (`Chamber.fundNotices`).

`perform_course` is the case analysis that all theorems about calls start from.
-/

namespace QuadraticVoting

namespace Log.Notice

/-- A notice all of whose integers can be written. -/
def Writable (n : Notice) : Prop := ∀ k ∈ n.integers, Value.isWritable k = true

/-- Of notices that are to be given one after the other, those before the first that fails. -/
def given (notices : List Notice) : List Notice :=
  notices.takeWhile fun n => n.integers.all Value.isWritable

theorem given_of_writable {notices : List Notice} (h : ∀ n ∈ notices, n.Writable) :
    given notices = notices :=
  List.takeWhile_eq_self_iff.2 fun n hn => List.all_eq_true.2 (h n hn)

theorem given_of_not_writable {n : Notice} (h : ¬ n.Writable) (rest : List Notice) :
    given (n :: rest) = [] :=
  List.takeWhile_cons_of_neg fun hn => h (List.all_eq_true.1 hn)

theorem given_of_head {n : Notice} (h : n.Writable) (rest : List Notice) :
    given (n :: rest) = n :: given rest :=
  List.takeWhile_cons_of_pos (List.all_eq_true.2 h)

end Log.Notice

theorem Reply.notices_announce [Host] {S α : Type} (s : S) (n : Log.Notice) (a : α) :
    (announce s n a).notices = Log.Notice.given [n] := by
  by_cases h : n.Writable
  · rw [announce_of_isWritable h, Log.Notice.given_of_head h]
    rfl
  · rw [announce_of_not_isWritable h, Log.Notice.given_of_not_writable h]
    rfl

namespace Call

/-- The name that the operator knows a call by. -/
def name : Call → String
  | registerVoter .. => "register_voter"
  | unregisterVoter .. => "unregister_voter"
  | createProposal .. => "create_proposal"
  | cancelProposal .. => "cancel_proposal"
  | setAccountList .. => "set_account_list"
  | vote .. => "vote"
  | closeProposal .. => "close_proposal"
  | claim .. => "claim"

/-- What the operator is told of a failure, if it is a defect. -/
def alarm (call : Call) (f : Fault) : List Log.Notice :=
  if f.kind = .defect then [.invariantViolated call.name call.origin] else []

end Call

namespace VotePlan

/-- Whether the vote closes the proposal. -/
def closes (plan : VotePlan) : Bool :=
  plan.proposal.kind = .privateVote && plan.tally.hasMajority

def counted (plan : VotePlan) : Proposal := { plan.proposal with tally := plan.tally }

def current (plan : VotePlan) : Option Ballot :=
  if plan.ballot.weight > 0 then some plan.ballot else none

def outcome (plan : VotePlan) : VoteOutcome :=
  ⟨plan.ballot.proposal, plan.ballot.voter, plan.prior, plan.current, plan.delta, plan.tally,
    plan.closes⟩

def notice (plan : VotePlan) : Log.Notice :=
  if plan.ballot.weight > 0 then .voteCast plan.ballot plan.tally
  else .voteWithdrawn plan.ballot.voter plan.ballot.proposal (Assembly.priorCost plan.prior)
    plan.tally

def closingNotices (plan : VotePlan) : List Log.Notice :=
  if plan.closes then [.proposalClosed plan.proposal.id true plan.tally] else []

def event (plan : VotePlan) : Event :=
  if plan.ballot.weight > 0 then .voteCast plan.ballot plan.delta
  else .voteWithdrawn plan.ballot.proposal plan.ballot.voter (Assembly.priorCost plan.prior)

def closingEvents (plan : VotePlan) : List Event :=
  if plan.closes then [.proposalClosed plan.ballot.proposal plan.tally true true] else []

theorem mem_closingEvents_iff {plan : VotePlan} {e : Event} : e ∈ plan.closingEvents ↔
    plan.closes = true ∧ e = .proposalClosed plan.ballot.proposal plan.tally true true := by
  unfold closingEvents
  split
  · next h => simp [h]
  · next h => simp [h]

theorem voteEvents_outcome (plan : VotePlan) :
    Chamber.voteEvents plan.outcome = plan.event :: plan.closingEvents := by
  unfold Chamber.voteEvents outcome current event closingEvents
  by_cases hw : plan.ballot.weight > 0 <;> cases plan.closes <;> simp [hw]

end VotePlan

namespace Assembly

/-- The assembly with the tally and the ballot of a planned vote. -/
def write (s : Assembly) (plan : VotePlan) : Assembly :=
  if plan.ballot.weight > 0 then
    (s.putProposal plan.ballot.proposal plan.counted).putBallot plan.ballot
  else
    (s.putProposal plan.ballot.proposal plan.counted).dropBallot plan.ballot.proposal
      plan.ballot.voter

/-- The same with the proposal closed. -/
def settle (s : Assembly) (plan : VotePlan) : Assembly :=
  (s.write plan).putProposal plan.ballot.proposal { plan.counted with status := .closed }

def carry (s : Assembly) (plan : VotePlan) : Assembly :=
  if plan.closes then s.settle plan else s.write plan

variable [Host]

theorem commitVote_eq (s : Assembly) (plan : VotePlan) : s.commitVote plan =
    (Reply.announce (s.write plan) plan.notice ()).andThen fun s' _ =>
      if plan.closes then
        (s'.markClosed plan.ballot.proposal plan.counted true).map fun _ => plan.outcome
      else .done s' plan.outcome := rfl

theorem commitVote_of_not_closes {s : Assembly} {plan : VotePlan} (hn : plan.notice.Writable)
    (hc : plan.closes = false) : (s.commitVote plan).result = .ok plan.outcome ∧
      (s.commitVote plan).state = s.write plan := by
  rw [commitVote_eq, Reply.announce_of_isWritable hn, Reply.andThen_of_ok rfl, hc]
  exact ⟨rfl, rfl⟩

theorem commitVote_of_closes {s : Assembly} {plan : VotePlan} (hn : plan.notice.Writable)
    (hc : plan.closes = true) : (s.commitVote plan).state = s.settle plan ∧
      ((∀ n ∈ plan.closingNotices, n.Writable) →
        (s.commitVote plan).result = .ok plan.outcome) ∧
      (¬ (∀ n ∈ plan.closingNotices, n.Writable) →
        (s.commitVote plan).result = .error (.excess .integer)) := by
  rw [commitVote_eq, Reply.announce_of_isWritable hn, Reply.andThen_of_ok rfl, hc]
  simp only [if_true, Reply.result_map, Reply.state_map, VotePlan.closingNotices, hc,
    List.forall_mem_singleton]
  refine ⟨Reply.state_announce .., fun h => ?_, fun h => ?_⟩
  · refine (congrArg _ (congrArg Reply.result (Reply.announce_of_isWritable h _ _))).trans rfl
  · refine (congrArg _ (Reply.result_announce_of_not_isWritable h _ _)).trans rfl

theorem commitVote_of_not_writable {s : Assembly} {plan : VotePlan} (hn : ¬ plan.notice.Writable) :
    (s.commitVote plan).result = .error (.excess .integer) ∧
      (s.commitVote plan).state = s.write plan := by
  have hr := Reply.result_announce_of_not_isWritable hn (s.write plan) ()
  rw [commitVote_eq, Reply.andThen_of_error hr]
  exact ⟨rfl, Reply.state_announce ..⟩

theorem notices_commitVote (s : Assembly) (plan : VotePlan) :
    (s.commitVote plan).notices = Log.Notice.given (plan.notice :: plan.closingNotices) := by
  rw [commitVote_eq]
  by_cases hn : plan.notice.Writable
  · rw [Reply.announce_of_isWritable hn, Reply.andThen_of_ok rfl, Log.Notice.given_of_head hn]
    unfold VotePlan.closingNotices
    cases plan.closes with
    | false => rfl
    | true =>
      simp only [if_true, markClosed, Reply.map, Reply.notices_announce]
      rfl
  · rw [Reply.announce_of_not_isWritable hn, Reply.andThen_of_error rfl,
      Log.Notice.given_of_not_writable hn]
    rfl

end Assembly

namespace Chamber

variable {σ : Type}

section Change

variable [FundLock σ]

/-! ### Checks -/

/-- What a call looks at before it moves any funds or changes anything. -/
def checks (c : Chamber σ) : Call → Except Fault Unit
  | .registerVoter o who => do
    o.requireFor who
    if !who.isGiven then throw .voterRequired
  | .unregisterVoter o who => do
    o.requireFor who
    c.assembly.registry.require who
  | .createProposal o d => do
    let creator ← o.signer
    discard <| c.assembly.draftProposal creator d c.assembly.now
  | .cancelProposal o p => discard <| c.assembly.checkCancel o p c.assembly.now
  | .setAccountList o p arg => do
    let proposal ← checkEditor c.assembly o p
    discard <| c.assembly.checkAccountList proposal arg c.assembly.now
  | .vote o p aye weight => do
    let voter ← o.signer
    discard <| c.assembly.planVote (FundLock.spendable c.funds) p voter aye.truthy weight
      c.assembly.now
  | .closeProposal o p => discard <| c.assembly.checkClose o p c.assembly.now
  | .claim o p => do
    let voter ← o.signer
    discard <| checkClaim c.assembly voter p

/-- What the funds give notice of, if a call comes to them. -/
def fundNotices (c : Chamber σ) : Call → List Log.Notice
  | .vote o p aye weight =>
    match o.signer with
    | .error _ => []
    | .ok voter =>
      match c.assembly.planVote (FundLock.spendable c.funds) p voter aye.truthy weight
        c.assembly.now with
      | .error _ => []
      | .ok plan => (FundLock.adjust c.funds voter plan.delta).notices
  | .claim o p =>
    match o.signer with
    | .error _ => []
    | .ok voter =>
      match checkClaim c.assembly voter p with
      | .error _ => []
      | .ok b => (FundLock.unlock c.funds voter b.locked).notices
  | _ => []

theorem fundNotices_vote {c : Chamber σ} {o : Origin} {p : Int} {aye weight : Value}
    {voter : Account} {plan : VotePlan} (ho : o.signer = .ok voter)
    (hp : c.assembly.planVote (FundLock.spendable c.funds) p voter aye.truthy weight
      c.assembly.now = .ok plan) :
    c.fundNotices (.vote o p aye weight) =
      (FundLock.adjust c.funds voter plan.delta).notices := by
  simp only [fundNotices, ho, hp]

theorem fundNotices_claim {c : Chamber σ} {o : Origin} {p : Int} {voter : Account} {b : Ballot}
    (ho : o.signer = .ok voter) (hb : checkClaim c.assembly voter p = .ok b) :
    c.fundNotices (.claim o p) = (FundLock.unlock c.funds voter b.locked).notices := by
  simp only [fundNotices, ho, hb]

/-! ### Changes -/

/-- `c.Change call c' events notices a`: the call passes its checks and the funds let it. It leads
to `c'`, is to be told by the notices, and then adds the events to the journal and answers `a`. -/
inductive Change (c : Chamber σ) :
    Call → Chamber σ → List Event → List Log.Notice → Answer → Prop
  | registered {o : Origin} {who : Account} (ho : o.requireFor who = .ok ())
      (hg : who.isGiven = true) (hn : who ∉ c.assembly.registry.voters) :
      Change c (.registerVoter o who)
        (c.withAssembly { c.assembly with registry := c.assembly.registry.add who })
        [.voterRegistered who] [.voterRegistered who] (.flag true)
  | unregistered {o : Origin} {who : Account} (ho : o.requireFor who = .ok ())
      (hm : who ∈ c.assembly.registry.voters) :
      Change c (.unregisterVoter o who)
        (c.withAssembly { c.assembly with registry := c.assembly.registry.remove who })
        [.voterUnregistered who] [.voterUnregistered who] .done
  | created {o : Origin} {d : Draft} {creator : Account} {x : Proposal}
      (ho : o.signer = .ok creator)
      (hx : c.assembly.draftProposal creator d c.assembly.now = .ok x) :
      Change c (.createProposal o d)
        (c.withAssembly { c.assembly with
          proposals := c.assembly.proposals.insert x.id x, nextId := c.assembly.nextId + 1 })
        [creationEvent x] [.proposalCreated x.id creator x.kind x.start x.stop] (.id x.id)
  | cancelled {o : Origin} {p : Int} {x : Proposal}
      (hx : c.assembly.checkCancel o p c.assembly.now = .ok x) :
      Change c (.cancelProposal o p)
        (c.withAssembly { c.assembly with proposals := c.assembly.proposals.erase p })
        [.proposalCancelled p] [.proposalCancelled p] .done
  | listed {o : Origin} {p : Int} {arg : ListArg} {x : Proposal} {l : AccountList}
      (hx : checkEditor c.assembly o p = .ok x)
      (hl : c.assembly.checkAccountList x arg c.assembly.now = .ok l) :
      Change c (.setAccountList o p arg)
        (c.withAssembly (c.assembly.putProposal p { x with accounts := l }))
        [.accountListSet p l] [.accountListSet x.id l.size x.kind] .done
  | closed {o : Origin} {p : Int} {x : Proposal}
      (hx : c.assembly.checkClose o p c.assembly.now = .ok x) (hc : x.isClosed = false) :
      Change c (.closeProposal o p)
        (c.withAssembly (c.assembly.putProposal p { x with status := .closed }))
        [.proposalClosed p x.tally x.tally.hasMajority false] [.proposalClosed x.id false x.tally]
        (.flag x.tally.hasMajority)
  | voted {o : Origin} {p : Int} {aye weight : Value} {voter : Account} {plan : VotePlan}
      (ho : o.signer = .ok voter)
      (hp : c.assembly.planVote (FundLock.spendable c.funds) p voter aye.truthy weight
        c.assembly.now = .ok plan)
      (hf : (FundLock.adjust c.funds voter plan.delta).result = .ok ()) :
      Change c (.vote o p aye weight)
        ⟨c.assembly.carry plan, (FundLock.adjust c.funds voter plan.delta).state⟩
        (voteEvents plan.outcome) (plan.notice :: plan.closingNotices) (.outcome plan.outcome)
  | claimed {o : Origin} {p : Int} {voter : Account} {b : Ballot} (ho : o.signer = .ok voter)
      (hb : checkClaim c.assembly voter p = .ok b)
      (hf : (FundLock.unlock c.funds voter b.locked).result = .ok ()) :
      Change c (.claim o p)
        ⟨c.assembly.dropBallot p voter, (FundLock.unlock c.funds voter b.locked).state⟩
        [.fundsClaimed p o.account b.locked] [.fundsClaimed voter p b.locked] (.amount b.locked)

/-- Calls that pass their checks and have nothing to do. -/
inductive Quiet (c : Chamber σ) : Call → Answer → Prop
  | registered {o : Origin} {who : Account} (ho : o.requireFor who = .ok ())
      (hg : who.isGiven = true) (hm : who ∈ c.assembly.registry.voters) :
      Quiet c (.registerVoter o who) (.flag false)
  | closed {o : Origin} {p : Int} {x : Proposal}
      (hx : c.assembly.checkClose o p c.assembly.now = .ok x) (hc : x.isClosed = true) :
      Quiet c (.closeProposal o p) (.flag x.tally.hasMajority)

/-- Calls that pass the checks of the assembly and are stopped by the funds. -/
inductive Unfunded (c : Chamber σ) : Call → Fault → σ → Prop
  | vote {o : Origin} {p : Int} {aye weight : Value} {voter : Account} {plan : VotePlan} {f : Fault}
      (ho : o.signer = .ok voter)
      (hp : c.assembly.planVote (FundLock.spendable c.funds) p voter aye.truthy weight
        c.assembly.now = .ok plan)
      (hf : (FundLock.adjust c.funds voter plan.delta).result = .error f) :
      Unfunded c (.vote o p aye weight) f (FundLock.adjust c.funds voter plan.delta).state
  | claim {o : Origin} {p : Int} {voter : Account} {b : Ballot} {f : Fault}
      (ho : o.signer = .ok voter) (hb : checkClaim c.assembly voter p = .ok b)
      (hf : (FundLock.unlock c.funds voter b.locked).result = .error f) :
      Unfunded c (.claim o p) f (FundLock.unlock c.funds voter b.locked).state

/-- A vote that would close its proposal stops short of that when its first notice fails. -/
inductive Halfway (c : Chamber σ) : Call → Chamber σ → Prop
  | vote {o : Origin} {p : Int} {aye weight : Value} {voter : Account} {plan : VotePlan}
      (ho : o.signer = .ok voter)
      (hp : c.assembly.planVote (FundLock.spendable c.funds) p voter aye.truthy weight
        c.assembly.now = .ok plan)
      (hf : (FundLock.adjust c.funds voter plan.delta).result = .ok ())
      (hn : ¬ plan.notice.Writable) (hc : plan.closes = true) :
      Halfway c (.vote o p aye weight)
        ⟨c.assembly.write plan, (FundLock.adjust c.funds voter plan.delta).state⟩

variable [Host]

/-- How a call can go, as told by its reply. -/
inductive Course (c : Chamber σ) (call : Call) (r : Reply (Chamber σ) Answer) : Prop
  | refused {f : Fault} (hx : c.checks call = .error f) (hr : r.result = .error f.told)
      (hs : r.state = c) (ht : r.notices = call.alarm f.told)
  | quiet {a : Answer} {n : Log.Notice} (hq : c.Quiet call a) (hr : r.result = .ok a)
      (hs : r.state = c) (ht : r.notices = [n]) (hd : n.level = .debug)
  | muted {a : Answer} (hq : c.Quiet call a) (hr : r.result = .error (.excess .integer))
      (hs : r.state = c) (ht : r.notices = [])
  | unfunded {f : Fault} {funds : σ} (hu : c.Unfunded call f funds) (hr : r.result = .error f)
      (hs : r.state = c.withFunds funds) (ht : r.notices = c.fundNotices call ++ call.alarm f)
  | done {c' : Chamber σ} {events : List Event} {notices : List Log.Notice} {a : Answer}
      (hc : c.Change call c' events notices a) (hn : ∀ n ∈ notices, n.Writable)
      (hr : r.result = .ok a) (hs : r.state = c'.append events)
      (ht : r.notices = c.fundNotices call ++ notices)
  | untold {c' : Chamber σ} {events : List Event} {notices : List Log.Notice} {a : Answer}
      (hc : c.Change call c' events notices a) (hn : ¬ ∀ n ∈ notices, n.Writable)
      (hr : r.result = .error (.excess .integer)) (hs : r.state = c')
      (ht : r.notices = c.fundNotices call ++ Log.Notice.given notices)
  | halfway {c' : Chamber σ} (hh : c.Halfway call c') (hr : r.result = .error (.excess .integer))
      (hs : r.state = c') (ht : r.notices = c.fundNotices call)

end Change

/-! ### How each call goes -/

theorem discard_ok {α : Type} {x : Except Fault α} {a : α} (h : x = .ok a) :
    discard x = .ok () := by
  subst h
  rfl

theorem discard_error {α : Type} {x : Except Fault α} {f : Fault} (h : x = .error f) :
    discard x = .error f := by
  subst h
  rfl

section Conclude

variable {α : Type} {name : String} {o : Origin} {events : α → List Event} {g : α → Answer}
  {work : Reply (Chamber σ) α}

variable (name o events g) in
theorem conclude_of_ok {a : α} (h : work.result = .ok a) :
    ((conclude name o events work).map g).result = .ok (g a) ∧
      ((conclude name o events work).map g).state = work.state.append (events a) := by
  unfold conclude
  rw [h]
  exact ⟨by simp [Except.map], rfl⟩

variable (name o events g) in
theorem conclude_of_error {f : Fault} (h : work.result = .error f) :
    ((conclude name o events work).map g).result = .error f ∧
      ((conclude name o events work).map g).state = work.state := by
  unfold conclude
  rw [h]
  dsimp only
  split
  · exact ⟨by simp [Except.map], rfl⟩
  · exact ⟨by simp [h, Except.map], rfl⟩

@[simp] theorem append_nil (c : Chamber σ) : c.append [] = c := by
  simp [append, Assembly.append, withAssembly]

theorem notices_conclude_of_ok {a : α} (h : work.result = .ok a) :
    ((conclude name o events work).map g).notices = work.notices := by
  unfold conclude
  rw [h]
  rfl

theorem notices_conclude_of_error {call : Call} {f : Fault} (h : work.result = .error f) :
    ((conclude call.name call.origin events work).map g).notices =
      work.notices ++ call.alarm f := by
  unfold conclude Call.alarm
  rw [h]
  dsimp only
  split
  · rfl
  · exact (List.append_nil _).symm

variable [FundLock σ] {c : Chamber σ} {call : Call}

theorem alarm_excess (call : Call) : call.alarm (.excess .integer) = [] := if_neg (by decide)

variable [Host]

theorem Course.of_fail {f : Fault} (hx : c.checks call = .error f) (hw : work = .fail c f) :
    c.Course call ((conclude call.name call.origin events work).map g) := by
  subst hw
  have hr : (Reply.fail c f : Reply _ α).result = .error f.told := Reply.result_fail c f
  have h := conclude_of_error call.name call.origin events g hr
  exact .refused hx h.1 h.2 (notices_conclude_of_error hr)

theorem Course.of_muted {a : Answer} (hq : c.Quiet call a)
    (hw : work = .fail c (.excess .integer)) :
    c.Course call ((conclude call.name call.origin events work).map g) := by
  subst hw
  have hr : (Reply.fail c (.excess .integer) : Reply _ α).result = .error (.excess .integer) := rfl
  have h := conclude_of_error call.name call.origin events g hr
  refine .muted hq h.1 h.2 ((notices_conclude_of_error hr).trans ?_)
  rw [alarm_excess]
  rfl

theorem Course.of_quiet {a : α} {n : Log.Notice} (hq : c.Quiet call (g a))
    (hw : work = ⟨.ok a, c, [n]⟩) (he : events a = []) (hd : n.level = .debug) :
    c.Course call ((conclude call.name call.origin events work).map g) := by
  have hr : work.result = .ok a := congrArg Reply.result hw
  have h := conclude_of_ok call.name call.origin events g hr
  refine .quiet hq h.1 ?_ ((notices_conclude_of_ok hr).trans (congrArg Reply.notices hw)) hd
  rw [h.2, he, append_nil, hw]

theorem Course.of_change {c' : Chamber σ} {notices : List Log.Notice} {a : α}
    (hc : c.Change call c' (events a) notices (g a)) (hs : work.state = c')
    (hok : (∀ n ∈ notices, n.Writable) → work.result = .ok a)
    (herr : ¬ (∀ n ∈ notices, n.Writable) → work.result = .error (.excess .integer))
    (ht : work.notices = c.fundNotices call ++ Log.Notice.given notices) :
    c.Course call ((conclude call.name call.origin events work).map g) := by
  by_cases hn : ∀ n ∈ notices, n.Writable
  · have h := conclude_of_ok call.name call.origin events g (hok hn)
    refine .done hc hn h.1 (hs ▸ h.2) ((notices_conclude_of_ok (hok hn)).trans ?_)
    rw [ht, Log.Notice.given_of_writable hn]
  · have h := conclude_of_error call.name call.origin events g (herr hn)
    refine .untold hc hn h.1 (hs ▸ h.2) ((notices_conclude_of_error (herr hn)).trans ?_)
    rw [alarm_excess, List.append_nil, ht]

theorem Course.of_announce {c' : Chamber σ} {n : Log.Notice} {a : α}
    (hc : c.Change call c' (events a) [n] (g a)) (hw : work = .announce c' n a)
    (hf : c.fundNotices call = []) :
    c.Course call ((conclude call.name call.origin events work).map g) := by
  subst hw
  refine .of_change hc (Reply.state_announce ..) (fun hn => ?_) (fun hn => ?_) ?_
  · rw [Reply.announce_of_isWritable (hn n List.mem_cons_self)]
  · exact Reply.result_announce_of_not_isWritable (fun h => hn (List.forall_mem_singleton.2 h)) ..
  · rw [hf, Reply.notices_announce]
    rfl

theorem Course.of_unfunded {f : Fault} {funds : σ} (hu : c.Unfunded call f funds)
    (hr : work.result = .error f) (hs : work.state = c.withFunds funds)
    (ht : work.notices = c.fundNotices call) :
    c.Course call ((conclude call.name call.origin events work).map g) := by
  have h := conclude_of_error call.name call.origin events g hr
  exact .unfunded hu h.1 (h.2.trans hs) ((notices_conclude_of_error hr).trans (ht ▸ rfl))

theorem Course.of_halfway {c' : Chamber σ} (hh : c.Halfway call c')
    (hr : work.result = .error (.excess .integer)) (hs : work.state = c')
    (ht : work.notices = c.fundNotices call) :
    c.Course call ((conclude call.name call.origin events work).map g) := by
  have h := conclude_of_error call.name call.origin events g hr
  refine .halfway hh h.1 (h.2.trans hs) ((notices_conclude_of_error hr).trans ?_)
  rw [alarm_excess, List.append_nil, ht]

end Conclude

section Calls

variable [Host] [FundLock σ] (c : Chamber σ)

theorem course_registerVoter (o : Origin) (who : Account) :
    c.Course (.registerVoter o who) (c.perform (.registerVoter o who)) := by
  show c.Course _ ((conclude _ _ _ _).map _)
  cases ho : o.requireFor who with
  | error f => exact .of_fail (by rw [checks, ho]; rfl) rfl
  | ok u =>
    by_cases hg : who.isGiven = true
    · by_cases hm : who ∈ c.assembly.registry.voters
      · refine .of_quiet (n := .voterKnown who) (.registered ho hg hm) ?_ rfl rfl
        simp [onRegistry, Registry.register, hg, hm, Reply.within, withAssembly]
      · refine .of_announce (a := true) (.registered ho hg hm) ?_ rfl
        simp [onRegistry, Registry.register, hg, hm, Reply.within, Reply.announce,
          Log.Notice.integers]
    · refine .of_fail (f := .voterRequired) ?_ ?_
      · rw [checks, ho]
        simp [hg]
        rfl
      · simp [onRegistry, Registry.register, hg, Reply.within, Reply.fail, withAssembly]

theorem course_unregisterVoter (o : Origin) (who : Account) :
    c.Course (.unregisterVoter o who) (c.perform (.unregisterVoter o who)) := by
  show c.Course _ ((conclude _ _ _ _).map _)
  cases ho : o.requireFor who with
  | error f => exact .of_fail (by rw [checks, ho]; rfl) rfl
  | ok u =>
    cases hr : c.assembly.registry.require who with
    | error f =>
      refine .of_fail (f := f) (by rw [checks, ho, hr]; rfl) ?_
      simp [onRegistry, Registry.unregister, hr, Reply.within, Reply.fail, withAssembly]
    | ok u =>
      refine .of_announce (a := ()) (.unregistered ho (Registry.require_eq_ok_iff.1 hr)) ?_ rfl
      simp [onRegistry, Registry.unregister, hr, Reply.within, Reply.announce,
        Log.Notice.integers]

theorem course_createProposal (o : Origin) (d : Draft) :
    c.Course (.createProposal o d) (c.perform (.createProposal o d)) := by
  show c.Course _ (((conclude _ _ _ _).map _).map _)
  rw [Reply.map_map]
  cases ho : o.signer with
  | error f => exact .of_fail (by rw [checks, ho]; rfl) rfl
  | ok creator =>
    cases hx : c.assembly.draftProposal creator d c.assembly.now with
    | error f =>
      refine .of_fail (f := f) (by rw [checks, ho]; exact discard_error hx) ?_
      rw [Reply.check_ok, onAssembly, Assembly.create, hx]
      rfl
    | ok x =>
      refine .of_announce (.created ho hx) ?_ rfl
      rw [Reply.check_ok, onAssembly, Assembly.create, hx]
      exact Reply.within_announce ..

theorem course_cancelProposal (o : Origin) (p : Int) :
    c.Course (.cancelProposal o p) (c.perform (.cancelProposal o p)) := by
  show c.Course _ ((conclude _ _ _ _).map _)
  cases hx : c.assembly.checkCancel o p c.assembly.now with
  | error f =>
    refine .of_fail (f := f) (discard_error hx) ?_
    rw [onAssembly, Assembly.cancel, hx]
    rfl
  | ok x =>
    refine .of_announce (a := ()) (.cancelled hx) ?_ rfl
    rw [onAssembly, Assembly.cancel, hx, Reply.check_ok, Reply.within_announce,
      Reply.map_announce]

theorem course_setAccountList (o : Origin) (p : Int) (arg : ListArg) :
    c.Course (.setAccountList o p arg) (c.perform (.setAccountList o p arg)) := by
  show c.Course _ (((conclude _ _ _ _).map _).map _)
  rw [Reply.map_map]
  cases hx : checkEditor c.assembly o p with
  | error f => exact .of_fail (by rw [checks, hx]; rfl) rfl
  | ok x =>
    cases hl : c.assembly.checkAccountList x arg c.assembly.now with
    | error f =>
      refine .of_fail (f := f) (by rw [checks, hx]; exact discard_error hl) ?_
      rw [Reply.check_ok, onAssembly, Assembly.setAccountList, hl]
      rfl
    | ok l =>
      refine .of_announce (.listed hx hl) ?_ rfl
      rw [Reply.check_ok, onAssembly, Assembly.setAccountList, hl]
      exact Reply.within_announce ..

omit [Host] in
theorem closingEvents_of_checkClose {s : Assembly} {o : Origin} {p now : Int} {x : Proposal}
    (hx : s.checkClose o p now = .ok x) (approved : Bool) : closingEvents s p approved =
      if x.isClosed then [] else [.proposalClosed p x.tally approved false] := by
  rw [closingEvents, (Assembly.checkClose_eq_ok_iff.1 hx).1]

omit [FundLock σ] in
theorem onAssembly_close_of_closed {o : Origin} {p : Int} {x : Proposal}
    (hx : c.assembly.checkClose o p c.assembly.now = .ok x) (hc : x.isClosed = true) :
    c.onAssembly (fun s => s.close o p s.now) =
      .announce c (.proposalKnownClosed p) x.tally.hasMajority := by
  rw [onAssembly, Assembly.close, hx, Reply.check_ok, if_pos hc, Reply.within_announce]
  rfl

theorem course_closeProposal (o : Origin) (p : Int) :
    c.Course (.closeProposal o p) (c.perform (.closeProposal o p)) := by
  show c.Course _ ((conclude _ _ _ _).map _)
  cases hx : c.assembly.checkClose o p c.assembly.now with
  | error f =>
    refine .of_fail (f := f) (discard_error hx) ?_
    rw [onAssembly, Assembly.close, hx]
    rfl
  | ok x =>
    cases hc : x.isClosed with
    | true =>
      have hw := c.onAssembly_close_of_closed hx hc
      by_cases hn : (Log.Notice.proposalKnownClosed p).Writable
      · refine .of_quiet (.closed hx hc) (hw.trans (Reply.announce_of_isWritable hn ..)) ?_ rfl
        rw [closingEvents_of_checkClose hx, if_pos hc]
      · exact .of_muted (.closed hx hc) (hw.trans (Reply.announce_of_not_isWritable hn ..))
    | false =>
      have hch := Change.closed hx hc
      have he := closingEvents_of_checkClose hx x.tally.hasMajority
      rw [hc, if_neg Bool.false_ne_true] at he
      rw [← he] at hch
      refine .of_announce hch ?_ rfl
      rw [onAssembly, Assembly.close, hx, Reply.check_ok, hc]
      exact Reply.within_announce ..

/-- From the moment the funds have moved, a vote is written down, all of it or all but the close. -/
theorem course_commitVote {o : Origin} {p : Int} {aye weight : Value} {voter : Account}
    {plan : VotePlan} (ho : o.signer = .ok voter)
    (hp : c.assembly.planVote (FundLock.spendable c.funds) p voter aye.truthy weight
      c.assembly.now = .ok plan)
    (hf : (FundLock.adjust c.funds voter plan.delta).result = .ok ())
    {work : Reply (Chamber σ) VoteOutcome}
    (hr : work.result = (c.assembly.commitVote plan).result)
    (hs : work.state = ⟨(c.assembly.commitVote plan).state,
      (FundLock.adjust c.funds voter plan.delta).state⟩)
    (ht : work.notices = (FundLock.adjust c.funds voter plan.delta).notices ++
      (c.assembly.commitVote plan).notices) :
    c.Course (.vote o p aye weight) ((conclude "vote" o voteEvents work).map .outcome) := by
  have hfunds : c.fundNotices (.vote o p aye weight) = _ := fundNotices_vote ho hp
  rw [Assembly.notices_commitVote, ← hfunds] at ht
  by_cases hn : plan.notice.Writable
  · cases hcl : plan.closes with
    | false =>
      have hm := Assembly.commitVote_of_not_closes (s := c.assembly) hn hcl
      rw [hm.1] at hr
      rw [hm.2] at hs
      refine .of_change (.voted ho hp hf) ?_ (fun _ => hr) (fun h => absurd ?_ h) ht
      · rw [hs, Assembly.carry, hcl]
        rfl
      · simpa [VotePlan.closingNotices, hcl] using hn
    | true =>
      have hm := Assembly.commitVote_of_closes (s := c.assembly) hn hcl
      rw [hm.1] at hs
      refine .of_change (.voted ho hp hf) ?_ (fun h => ?_) (fun h => ?_) ht
      · rw [hs, Assembly.carry, hcl]
        rfl
      · exact hr.trans (hm.2.1 fun n hn => h n (List.mem_cons_of_mem _ hn))
      · exact hr.trans (hm.2.2 fun h' => h (List.forall_mem_cons.2 ⟨hn, h'⟩))
  · have hm := Assembly.commitVote_of_not_writable (s := c.assembly) hn
    rw [hm.1] at hr
    rw [hm.2] at hs
    cases hcl : plan.closes with
    | false =>
      refine .of_change (.voted ho hp hf) ?_ (fun h => absurd (h _ List.mem_cons_self) hn)
        (fun _ => hr) ht
      rw [hs, Assembly.carry, hcl]
      rfl
    | true =>
      rw [Log.Notice.given_of_not_writable hn, List.append_nil] at ht
      exact .of_halfway (.vote ho hp hf hn hcl) hr hs ht

theorem course_vote (o : Origin) (p : Int) (aye weight : Value) :
    c.Course (.vote o p aye weight) (c.perform (.vote o p aye weight)) := by
  show c.Course _ ((conclude _ _ _ _).map _)
  cases ho : o.signer with
  | error f => exact .of_fail (by rw [checks, ho]; rfl) rfl
  | ok voter =>
    cases hp : c.assembly.planVote (FundLock.spendable c.funds) p voter aye.truthy weight
        c.assembly.now with
    | error f =>
      refine .of_fail (f := f) (by rw [checks, ho]; exact discard_error hp) ?_
      rw [Reply.check_ok, vote, hp]
      rfl
    | ok plan =>
      rw [Reply.check_ok, vote, hp, Reply.check_ok]
      cases hf : (FundLock.adjust c.funds voter plan.delta).result with
      | error f =>
        have hw : ((FundLock.adjust c.funds voter plan.delta).within c.withFunds).result =
          .error f := hf
        rw [Reply.andThen_of_error hw]
        exact .of_unfunded (.vote ho hp hf) rfl rfl (fundNotices_vote ho hp).symm
      | ok u =>
        have hw : ((FundLock.adjust c.funds voter plan.delta).within c.withFunds).result =
          .ok u := hf
        rw [Reply.andThen_of_ok hw]
        exact c.course_commitVote ho hp hf rfl rfl rfl

theorem course_claim (o : Origin) (p : Int) : c.Course (.claim o p) (c.perform (.claim o p)) := by
  show c.Course _ (((conclude _ _ _ _).map _).map _)
  rw [Reply.map_map]
  cases ho : o.signer with
  | error f => exact .of_fail (by rw [checks, ho]; rfl) rfl
  | ok voter =>
    cases hb : checkClaim c.assembly voter p with
    | error f =>
      refine .of_fail (f := f) (by rw [checks, ho]; exact discard_error hb) ?_
      rw [Reply.check_ok, claim, hb]
      rfl
    | ok b =>
      rw [Reply.check_ok, claim, hb, Reply.check_ok]
      have htold := fundNotices_claim ho hb
      cases hf : (FundLock.unlock c.funds voter b.locked).result with
      | error f =>
        have hw : ((FundLock.unlock c.funds voter b.locked).within c.withFunds).result =
          .error f := hf
        rw [Reply.andThen_of_error hw]
        exact .of_unfunded (.claim ho hb hf) rfl rfl htold.symm
      | ok u =>
        have hw : ((FundLock.unlock c.funds voter b.locked).within c.withFunds).result =
          .ok u := hf
        rw [Reply.andThen_of_ok hw]
        refine .of_change (.claimed ho hb hf) (Reply.state_announce ..) (fun h => ?_)
          (fun h => ?_) ?_
        · have hn := h _ List.mem_cons_self
          exact congrArg Reply.result (Reply.announce_of_isWritable hn ..)
        · refine Reply.result_announce_of_not_isWritable (fun hn => h ?_) ..
          exact List.forall_mem_singleton.2 hn
        · rw [htold]
          exact congrArg (_ ++ ·) (Reply.notices_announce ..)

theorem perform_course (call : Call) : c.Course call (c.perform call) := by
  cases call with
  | registerVoter o who => exact c.course_registerVoter o who
  | unregisterVoter o who => exact c.course_unregisterVoter o who
  | createProposal o d => exact c.course_createProposal o d
  | cancelProposal o p => exact c.course_cancelProposal o p
  | setAccountList o p arg => exact c.course_setAccountList o p arg
  | vote o p aye weight => exact c.course_vote o p aye weight
  | closeProposal o p => exact c.course_closeProposal o p
  | claim o p => exact c.course_claim o p

end Calls

/-! ### What goes with a change -/

section Accepted

variable [FundLock σ] {c c' : Chamber σ} {call : Call}

theorem Change.unique {c₁ c₂ : Chamber σ} {events₁ events₂ : List Event}
    {notices₁ notices₂ : List Log.Notice} {a₁ a₂ : Answer}
    (h₁ : c.Change call c₁ events₁ notices₁ a₁) (h₂ : c.Change call c₂ events₂ notices₂ a₂) :
    c₁ = c₂ ∧ events₁ = events₂ ∧ notices₁ = notices₂ ∧ a₁ = a₂ := by
  cases h₁ with
  | registered | unregistered | cancelled =>
    cases h₂
    exact ⟨rfl, rfl, rfl, rfl⟩
  | created ho hx =>
    cases h₂ with
    | created ho' hx' =>
      cases ho.symm.trans ho'
      cases hx.symm.trans hx'
      exact ⟨rfl, rfl, rfl, rfl⟩
  | listed hx hl =>
    cases h₂ with
    | listed hx' hl' =>
      cases hx.symm.trans hx'
      cases hl.symm.trans hl'
      exact ⟨rfl, rfl, rfl, rfl⟩
  | closed hx hc =>
    cases h₂ with
    | closed hx' hc' =>
      cases hx.symm.trans hx'
      exact ⟨rfl, rfl, rfl, rfl⟩
  | voted ho hp hf =>
    cases h₂ with
    | voted ho' hp' hf' =>
      cases ho.symm.trans ho'
      cases hp.symm.trans hp'
      exact ⟨rfl, rfl, rfl, rfl⟩
  | claimed ho hb hf =>
    cases h₂ with
    | claimed ho' hb' hf' =>
      cases ho.symm.trans ho'
      cases hb.symm.trans hb'
      exact ⟨rfl, rfl, rfl, rfl⟩

variable {events : List Event} {notices : List Log.Notice} {a : Answer}

theorem Change.checks_eq_ok (hc : c.Change call c' events notices a) :
    c.checks call = .ok () := by
  cases hc with
  | registered ho hg hn =>
    rw [checks, ho]
    simp [hg]
  | unregistered ho hm =>
    rw [checks, ho]
    exact Registry.require_eq_ok_iff.2 hm
  | created ho hx =>
    rw [checks, ho]
    exact discard_ok hx
  | cancelled hx => exact discard_ok hx
  | listed hx hl =>
    rw [checks, hx]
    exact discard_ok hl
  | closed hx hc => exact discard_ok hx
  | voted ho hp hf =>
    rw [checks, ho]
    exact discard_ok hp
  | claimed ho hb hf =>
    rw [checks, ho]
    exact discard_ok hb

theorem Change.not_quiet (hc : c.Change call c' events notices a) {b : Answer} :
    ¬ c.Quiet call b := by
  intro hq
  cases hq with
  | registered ho hg hm =>
    cases hc with
    | registered ho' hg' hn => exact hn hm
  | closed hx hcl =>
    cases hc with
    | closed hx' hc' =>
      cases hx.symm.trans hx'
      cases hcl.symm.trans hc'

theorem Quiet.checks_eq_ok {b : Answer} (hq : c.Quiet call b) : c.checks call = .ok () := by
  cases hq with
  | registered ho hg hm =>
    rw [checks, ho]
    simp [hg]
  | closed hx hc => exact discard_ok hx

theorem Unfunded.checks_eq_ok {f : Fault} {funds : σ} (hu : c.Unfunded call f funds) :
    c.checks call = .ok () := by
  cases hu with
  | vote ho hp hf =>
    rw [checks, ho]
    exact discard_ok hp
  | claim ho hb hf =>
    rw [checks, ho]
    exact discard_ok hb

theorem Change.not_unfunded (hc : c.Change call c' events notices a) {f : Fault} {funds : σ} :
    ¬ c.Unfunded call f funds := by
  intro hu
  cases hu with
  | vote ho hp hf =>
    cases hc with
    | voted ho' hp' hf' =>
      cases ho.symm.trans ho'
      cases hp.symm.trans hp'
      cases hf.symm.trans hf'
  | claim ho hb hf =>
    cases hc with
    | claimed ho' hb' hf' =>
      cases ho.symm.trans ho'
      cases hb.symm.trans hb'
      cases hf.symm.trans hf'

end Accepted

end Chamber

end QuadraticVoting
