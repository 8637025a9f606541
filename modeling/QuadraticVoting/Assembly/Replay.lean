import QuadraticVoting.Assembly.Voting

/-!
# Reading the journal

`Assembly.replay` reads a journal from an empty assembly on, taking each event at its word. It
never asks whether an event was allowed, and it needs nothing but the journal: not the calls, not
the clock, not the funds.
-/

namespace QuadraticVoting.Assembly

def editProposal (s : Assembly) (p : Int) (f : Proposal → Proposal) : Assembly :=
  match s.proposal? p with
  | none => s
  | some x => s.putProposal p (f x)

/-- The tally without a ballot; one that is not in the tally leaves it as it was. -/
def without (t : Tally) : Option Ballot → Tally
  | none => t
  | some b => (t.remove b.aye b.locked).toOption.getD t

def apply (s : Assembly) : Event → Assembly
  | .voterRegistered who => { s with registry := s.registry.add who }
  | .voterUnregistered who => { s with registry := s.registry.remove who }
  | .proposalCreated p creator data kind accounts start stop =>
    let x : Proposal := { id := p, creator, data, kind, accounts, start, stop }
    { s with proposals := s.proposals.insert p x, nextId := s.nextId + 1 }
  | .proposalCancelled p => { s with proposals := s.proposals.erase p }
  | .accountListSet p accounts => s.editProposal p fun x => { x with accounts := accounts }
  | .voteCast b _ =>
    let prior := s.ballot? b.proposal b.voter
    (s.editProposal b.proposal fun x =>
      { x with tally := (without x.tally prior).add b.aye b.locked }).putBallot b
  | .voteWithdrawn p voter _ =>
    let prior := s.ballot? p voter
    (s.editProposal p fun x => { x with tally := without x.tally prior }).dropBallot p voter
  | .proposalClosed p _ _ _ => s.editProposal p fun x => { x with status := .closed }
  | .fundsClaimed p voter _ => s.dropBallot p voter

def replay (s : Assembly) (journal : List Event) : Assembly := journal.foldl apply s

theorem replay_append (s : Assembly) (a b : List Event) :
    s.replay (a ++ b) = (s.replay a).replay b := List.foldl_append

end QuadraticVoting.Assembly
