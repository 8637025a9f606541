import QuadraticVoting.Assembly.Agenda
import QuadraticVoting.FundLock

/-!
# Voting

A vote of weight `w` freezes `w²` of the voter's balance for as long as it is live, and counts as
much in the tally. Voting again moves only the difference, of the funds and of the tally; weight 0
withdraws. A private proposal closes as soon as its aye power is a strict majority.

Everything that can be refused is looked at first (`Assembly.planVote`), then the funds are moved,
and only then is the vote written down (`Assembly.commitVote`). A vote whose notice fails is
written down all the same, but it closes nothing.
-/

namespace QuadraticVoting

/-- What a vote call changed. -/
structure VoteOutcome where
  proposal : Int
  voter : Account
  previous : Option Ballot
  current : Option Ballot
  delta : Int
  tally : Tally
  autoClosed : Bool
deriving DecidableEq

namespace VoteOutcome

def withdrawn (o : VoteOutcome) : Bool := o.current.isNone

def ballotValue : Option Ballot → Value
  | none => .null
  | some b => b.toValue

def toValue (o : VoteOutcome) : Value :=
  .table [
    ("proposalId", .int o.proposal),
    ("voter", o.voter.toValue),
    ("previous", ballotValue o.previous),
    ("current", ballotValue o.current),
    ("lockedDelta", .int o.delta),
    ("ratio", o.tally.ratioValue),
    ("autoClosed", .bool o.autoClosed)]

end VoteOutcome

/-- A weight is an integer, not a truth value, and not negative. -/
def weightOf (v : Value) : Except Fault Int :=
  match v with
  | .int n => if n < 0 then .error (.invalidWeight v) else .ok n
  | _ => .error (.invalidWeight v)

/-- A vote that has passed every check, with the tally it leads to. -/
structure VotePlan where
  proposal : Proposal
  ballot : Ballot
  prior : Option Ballot
  delta : Int
  tally : Tally
deriving DecidableEq

namespace Assembly

/-- The proposal, if it takes votes now. -/
def requireActive (s : Assembly) (p : Int) (now : Int) : Except Fault Proposal := do
  let proposal ← s.requireProposal p
  match proposal.stageAt now with
  | .active => return proposal
  | .pending => throw (.notStarted p proposal.start)
  | .ended => throw (.alreadyEnded p proposal.stop)
  | .closed => throw (.alreadyClosed p)

/-- A vote must differ from the live one; with none live, there is nothing to withdraw. -/
def requireChange (prior : Option Ballot) (b : Ballot) : Except Fault Unit :=
  match prior with
  | none => if b.weight = 0 then .error (.nothingToWithdraw b.voter b.proposal) else .ok ()
  | some old =>
    if old.aye = b.aye && old.weight = b.weight then .error (.sameVote b.voter b.proposal)
    else .ok ()

def priorCost : Option Ballot → Int
  | none => 0
  | some b => b.locked

/-- The tally with the old contribution taken out and the new one put in. -/
def swapTally (t : Tally) (prior : Option Ballot) (b : Ballot) (cost : Int) :
    Except Fault Tally := do
  let t ← match prior with
    | none => pure t
    | some old => t.remove old.aye old.locked
  return if b.weight > 0 then t.add b.aye cost else t

def planVote (s : Assembly) (spendable : Account → Int) (p : Int) (voter : Account) (aye : Bool)
    (weight : Value) (now : Int) : Except Fault VotePlan := do
  let weight ← weightOf weight
  s.registry.require voter
  let proposal ← s.requireActive p now
  if !proposal.permits voter then throw (.notAllowed voter p)
  let ballot : Ballot := ⟨p, voter, aye, weight⟩
  let prior := s.ballot? p voter
  requireChange prior ballot
  let new ← cost weight
  let delta := new - priorCost prior
  if delta > 0 && spendable voter < delta then
    throw (.cannotAfford voter (spendable voter) delta weight p)
  let tally ← swapTally proposal.tally prior ballot new
  return ⟨proposal, ballot, prior, delta, tally⟩

/-- Write a planned vote down: the tally, the ballot, and the close of a private proposal that has
reached a majority. -/
def commitVote [Host] (s : Assembly) (plan : VotePlan) : Reply Assembly VoteOutcome :=
  let b := plan.ballot
  let proposal := { plan.proposal with tally := plan.tally }
  let s₁ := s.putProposal b.proposal proposal
  let current := if b.weight > 0 then some b else none
  let s₂ := if b.weight > 0 then s₁.putBallot b else s₁.dropBallot b.proposal b.voter
  let notice :=
    if b.weight > 0 then .voteCast b plan.tally
    else .voteWithdrawn b.voter b.proposal (priorCost plan.prior) plan.tally
  let closes := proposal.kind = .privateVote && plan.tally.hasMajority
  let outcome := ⟨b.proposal, b.voter, plan.prior, current, plan.delta, plan.tally, closes⟩
  (Reply.announce s₂ notice ()).andThen fun s₂ _ =>
    if closes then (s₂.markClosed b.proposal proposal true).map fun _ => outcome
    else .done s₂ outcome

end Assembly

namespace Chamber

variable [Host] {σ : Type} [FundLock σ]

/-- Cast, change or (with weight 0) withdraw a vote at a block height. -/
def vote (c : Chamber σ) (p : Int) (voter : Account) (aye : Bool) (weight : Value) (now : Int) :
    Reply (Chamber σ) VoteOutcome :=
  .check c (c.assembly.planVote (FundLock.spendable c.funds) p voter aye weight now) fun plan =>
    ((FundLock.adjust c.funds voter plan.delta).within c.withFunds).andThen fun c' _ =>
      (c'.assembly.commitVote plan).within c'.withAssembly

/-- The ballot whose funds a voter may have back. -/
def checkClaim (s : Assembly) (voter : Account) (p : Int) : Except Fault Ballot := do
  s.registry.require voter
  let proposal ← s.requireProposal p
  if !proposal.isClosed then throw (.notClosed p)
  match s.ballot? p voter with
  | none => throw (.nothingToClaim voter p)
  | some b => return b

/-- Release what a voter's ballot on a closed proposal keeps frozen. The ballot goes with it, so
that each is claimed once. -/
def claim (c : Chamber σ) (voter : Account) (p : Int) : Reply (Chamber σ) Ballot :=
  .check c (checkClaim c.assembly voter p) fun b =>
    ((FundLock.unlock c.funds voter b.locked).within c.withFunds).andThen fun c' _ =>
      .announce (c'.withAssembly (c'.assembly.dropBallot p voter))
        (.fundsClaimed voter p b.locked) b

end Chamber

theorem weightOf_eq_ok_iff {v : Value} {n : Int} : weightOf v = .ok n ↔ v = .int n ∧ 0 ≤ n := by
  unfold weightOf
  split
  · next k =>
    split
    · simp only [reduceCtorEq, Value.int.injEq, false_iff]; omega
    · simp only [Except.ok.injEq, Value.int.injEq]; omega
  · next h => exact ⟨nofun, fun e => absurd e.1 (h _)⟩

namespace Assembly

theorem requireActive_eq_ok_iff {s : Assembly} {p now : Int} {x : Proposal} :
    s.requireActive p now = .ok x ↔
      s.proposal? p = some x ∧ x.isClosed = false ∧ x.start ≤ now ∧ now ≤ x.stop := by
  rw [← Proposal.stageAt_eq_active_iff, ← requireProposal_eq_ok_iff]
  unfold requireActive
  cases h : s.requireProposal p with
  | error e => simp [bind, Except.bind]
  | ok y =>
    simp only [bind, Except.bind, Except.ok.injEq]
    cases hs : y.stageAt now <;> simp only [pure, Except.pure, throw, throwThe, MonadExceptOf.throw,
      reduceCtorEq, Except.ok.injEq, false_iff, not_and]
    · rintro rfl; simp [hs]
    · exact ⟨fun e => ⟨e, e ▸ hs⟩, fun e => e.1⟩
    · rintro rfl; simp [hs]
    · rintro rfl; simp [hs]

end Assembly

end QuadraticVoting
