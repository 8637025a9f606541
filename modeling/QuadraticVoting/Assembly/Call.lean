import QuadraticVoting.Assembly.Voting

/-!
# Calls

The eight calls of a chamber. Each takes the origin it comes from, does its work, and appends to
the journal what it has done; a call that fails appends nothing. A defect is also reported to the
operator, with the name of the call and its origin.

`Call` lists the calls with their arguments, and `Chamber.perform` answers any of them.
-/

namespace QuadraticVoting

namespace Chamber

variable {σ : Type}

def append (c : Chamber σ) (events : List Event) : Chamber σ :=
  c.withAssembly (c.assembly.append events)

/-- The end of a call: its events on success, a report on a defect. -/
def conclude {α : Type} (call : String) (origin : Origin) (events : α → List Event)
    (r : Reply (Chamber σ) α) : Reply (Chamber σ) α :=
  match r.result with
  | .ok a => { r with state := r.state.append (events a) }
  | .error f =>
    if f.kind = .defect then
      { r with notices := r.notices ++ [.invariantViolated call origin] }
    else r

/-- A change of the assembly alone. -/
def onAssembly {α : Type} (c : Chamber σ) (r : Assembly → Reply Assembly α) :
    Reply (Chamber σ) α := (r c.assembly).within c.withAssembly

def onRegistry {α : Type} (c : Chamber σ) (r : Registry → Reply Registry α) :
    Reply (Chamber σ) α :=
  (r c.assembly.registry).within fun x => c.withAssembly { c.assembly with registry := x }

section AnyHost

variable [Host]

/-- Root or the account itself. The answer is whether the account is new. -/
def registerVoter (c : Chamber σ) (origin : Origin) (who : Account) : Reply (Chamber σ) Bool :=
  conclude "register_voter" origin (fun new => if new then [.voterRegistered who] else []) <|
    .check c (origin.requireFor who) fun _ => c.onRegistry (·.register who)

/-- Root or the account itself; needs no funds. -/
def unregisterVoter (c : Chamber σ) (origin : Origin) (who : Account) : Reply (Chamber σ) Unit :=
  conclude "unregister_voter" origin (fun _ => [.voterUnregistered who]) <|
    .check c (origin.requireFor who) fun _ => c.onRegistry (·.unregister who)

def creationEvent (p : Proposal) : Event :=
  .proposalCreated p.id p.creator p.data p.kind p.accounts p.start p.stop

/-- The answer is the id of the new proposal. -/
def createProposal (c : Chamber σ) (origin : Origin) (draft : Draft) : Reply (Chamber σ) Int :=
  Reply.map (f := Proposal.id) <|
    conclude "create_proposal" origin (fun p => [creationEvent p]) <|
      .check c origin.signer fun creator =>
        c.onAssembly fun s => s.create creator draft s.now

/-- The creator or root, strictly before the start. -/
def cancelProposal (c : Chamber σ) (origin : Origin) (p : Int) : Reply (Chamber σ) Unit :=
  conclude "cancel_proposal" origin (fun _ => [.proposalCancelled p]) <|
    Reply.map (f := fun _ => ()) <| c.onAssembly fun s => s.cancel origin p s.now

/-- The proposal, if the origin may edit its account list. -/
def checkEditor (s : Assembly) (origin : Origin) (p : Int) : Except Fault Proposal := do
  let proposal ← s.requireProposal p
  if !Assembly.mayManage origin proposal then throw (.cannotEditList origin.account p)
  return proposal

/-- The creator or root, while the proposal is pending. -/
def setAccountList (c : Chamber σ) (origin : Origin) (p : Int) (accounts : ListArg) :
    Reply (Chamber σ) Unit :=
  Reply.map (f := fun _ => ()) <|
    conclude "set_account_list" origin (fun l => [.accountListSet p l]) <|
      .check c (checkEditor c.assembly origin p) fun proposal =>
        c.onAssembly fun s => s.setAccountList p proposal accounts s.now

/-- The event of a close that is not a repeated one. -/
def closingEvents (s : Assembly) (p : Int) (approved : Bool) : List Event :=
  match s.proposal? p with
  | some x => if x.isClosed then [] else [.proposalClosed p x.tally approved false]
  | none => []

/-- The creator or root, once the window is over; moves no funds. The answer is whether the
proposal passed. -/
def closeProposal (c : Chamber σ) (origin : Origin) (p : Int) : Reply (Chamber σ) Bool :=
  conclude "close_proposal" origin (closingEvents c.assembly p) <|
    c.onAssembly fun s => s.close origin p s.now

end AnyHost

def voteEvents (o : VoteOutcome) : List Event :=
  let first := match o.current with
    | some b => .voteCast b o.delta
    | none => .voteWithdrawn o.proposal o.voter (Assembly.priorCost o.previous)
  if o.autoClosed then [first, .proposalClosed o.proposal o.tally true true] else [first]

section Funds

variable [Host] [FundLock σ]

/-- Cast, change or (with weight 0) withdraw the signer's vote. -/
def castVote (c : Chamber σ) (origin : Origin) (p : Int) (aye weight : Value) :
    Reply (Chamber σ) VoteOutcome :=
  conclude "vote" origin voteEvents <|
    .check c origin.signer fun voter => c.vote p voter aye.truthy weight c.assembly.now

/-- Release the signer's lock on a closed proposal; the answer is the amount. -/
def claimFunds (c : Chamber σ) (origin : Origin) (p : Int) : Reply (Chamber σ) Int :=
  Reply.map (f := Ballot.locked) <|
    conclude "claim" origin (fun b => [.fundsClaimed p origin.account b.locked]) <|
      .check c origin.signer fun voter => c.claim voter p

end Funds

end Chamber

inductive Call
  | registerVoter (origin : Origin) (who : Account)
  | unregisterVoter (origin : Origin) (who : Account)
  | createProposal (origin : Origin) (draft : Draft)
  | cancelProposal (origin : Origin) (proposal : Int)
  | setAccountList (origin : Origin) (proposal : Int) (accounts : ListArg)
  | vote (origin : Origin) (proposal : Int) (aye weight : Value)
  | closeProposal (origin : Origin) (proposal : Int)
  | claim (origin : Origin) (proposal : Int)
deriving DecidableEq

namespace Call

def origin : Call → Origin
  | registerVoter o _ | unregisterVoter o _ | createProposal o _ | cancelProposal o _
  | setAccountList o .. | vote o .. | closeProposal o _ | claim o _ => o

end Call

inductive Answer
  | done
  | flag (b : Bool)
  | id (n : Int)
  | outcome (o : VoteOutcome)
  | amount (n : Int)
deriving DecidableEq

namespace Answer

def toValue : Answer → Value
  | done => .null
  | flag b => .bool b
  | id n => .int n
  | outcome o => o.toValue
  | amount n => .int n

end Answer

namespace Chamber

variable {σ : Type} [FundLock σ]

def perform [Host] (c : Chamber σ) : Call → Reply (Chamber σ) Answer
  | .registerVoter o who => (c.registerVoter o who).map .flag
  | .unregisterVoter o who => (c.unregisterVoter o who).map fun _ => .done
  | .createProposal o draft => (c.createProposal o draft).map .id
  | .cancelProposal o p => (c.cancelProposal o p).map fun _ => .done
  | .setAccountList o p accounts => (c.setAccountList o p accounts).map fun _ => .done
  | .vote o p aye weight => (c.castVote o p aye weight).map .outcome
  | .closeProposal o p => (c.closeProposal o p).map .flag
  | .claim o p => (c.claimFunds o p).map .amount

end Chamber

end QuadraticVoting
