import QuadraticVoting.Assembly.State

/-!
# The agenda

Putting a proposal on the agenda, editing its account list or taking it off while it is pending,
and closing it once its window is over. Each call looks at everything it may refuse before it
changes anything; after that only the notice of the change can fail, and the change stays. These
calls write nothing to the journal: that is done where a call is dispatched.
-/

namespace QuadraticVoting

/-- What a caller gives to have a proposal put on the agenda. -/
structure Draft where
  payload : Payload
  kind : KindArg
  accounts : ListArg
  start : Int
  stop : Int
deriving DecidableEq

namespace Assembly

/-- A window must begin no earlier than now and no later than the delay limit, and last between
the shortest and the longest duration. -/
def checkWindow (limits : Limits) (start stop now : Int) : Except Fault Unit :=
  if start < now then .error (.startInPast start now)
  else if stop ≤ start then .error (.endBeforeStart stop start)
  else if stop - start > limits.maximum then
    .error (.durationTooLong (stop - start) limits.maximum)
  else if stop - start < limits.minimum then
    .error (.durationTooShort (stop - start) limits.minimum)
  else if start - now > limits.delay then .error (.startTooFar (start - now) limits.delay)
  else .ok ()

/-- The proposal that a draft would become. -/
def draftProposal (s : Assembly) (creator : Account) (d : Draft) (now : Int) :
    Except Fault Proposal := do
  s.registry.require creator
  let data ← d.payload.bounded s.limits.payload
  let accounts ← AccountList.bounded s.limits.accounts d.accounts
  let kind ← d.kind.require
  checkWindow s.limits d.start d.stop now
  return { id := s.nextId, creator, data, kind, accounts, start := d.start, stop := d.stop }

section AnyHost

variable [Host]

/-- The answer is the new proposal. -/
def create (s : Assembly) (creator : Account) (d : Draft) (now : Int) : Reply Assembly Proposal :=
  .check s (s.draftProposal creator d now) fun p =>
    let s' := { s with proposals := s.proposals.insert p.id p, nextId := s.nextId + 1 }
    .announce s' (.proposalCreated p.id creator p.kind p.start p.stop) p

/-- Root and the creator may act on a proposal. -/
def mayManage (caller : Origin) (p : Proposal) : Bool :=
  caller.isRoot || p.creator = caller.account

def checkCancel (s : Assembly) (caller : Origin) (p : Int) (now : Int) : Except Fault Proposal := do
  let proposal ← s.requireProposal p
  if !mayManage caller proposal then throw (.cannotCancel caller.account p)
  if !proposal.isPendingAt now then throw (.alreadyStarted p proposal.start)
  return proposal

/-- Take a pending proposal off the agenda. No funds are locked on it before its start, so there
is nothing to release. -/
def cancel (s : Assembly) (caller : Origin) (p : Int) (now : Int) : Reply Assembly Proposal :=
  .check s (s.checkCancel caller p now) fun proposal =>
    .announce { s with proposals := s.proposals.erase p } (.proposalCancelled p) proposal

/-- The list that would replace the one of a pending proposal. -/
def checkAccountList (s : Assembly) (p : Proposal) (accounts : ListArg) (now : Int) :
    Except Fault AccountList :=
  if p.isPendingAt now then AccountList.bounded s.limits.accounts accounts
  else .error (.alreadyStarted p.id p.start)

def setAccountList (s : Assembly) (p : Int) (proposal : Proposal) (accounts : ListArg)
    (now : Int) : Reply Assembly AccountList :=
  .check s (s.checkAccountList proposal accounts now) fun l =>
    .announce (s.putProposal p { proposal with accounts := l })
      (.accountListSet proposal.id l.size proposal.kind) l

/-- Close a proposal whatever its stage; the answer is whether it passed. -/
def markClosed (s : Assembly) (p : Int) (proposal : Proposal) (auto : Bool) : Reply Assembly Bool :=
  .announce (s.putProposal p { proposal with status := .closed })
    (.proposalClosed proposal.id auto proposal.tally) proposal.tally.hasMajority

def checkClose (s : Assembly) (caller : Origin) (p : Int) (now : Int) : Except Fault Proposal := do
  let proposal ← s.requireProposal p
  if !mayManage caller proposal then throw (.cannotClose caller.account p)
  match proposal.stageAt now with
  | .ended | .closed => return proposal
  | stage => throw (.notEnded p stage proposal.stop)

/-- Close a proposal whose window is over; the answer is whether it passed. Closing a closed
proposal changes nothing and gives the same answer. -/
def close (s : Assembly) (caller : Origin) (p : Int) (now : Int) : Reply Assembly Bool :=
  .check s (s.checkClose caller p now) fun proposal =>
    if proposal.isClosed then .announce s (.proposalKnownClosed p) proposal.tally.hasMajority
    else s.markClosed p proposal false

end AnyHost

theorem checkWindow_eq_ok_iff {limits : Limits} {start stop now : Int} :
    checkWindow limits start stop now = .ok () ↔
      now ≤ start ∧ start - now ≤ limits.delay ∧
        limits.minimum ≤ stop - start ∧ stop - start ≤ limits.maximum := by
  have h := limits.one_le_minimum
  unfold checkWindow
  repeat' split
  all_goals simp only [reduceCtorEq, false_iff, true_iff]
  all_goals omega

end Assembly

end QuadraticVoting
