import QuadraticVoting.Assembly.Run

/-!
# The desk

A small surface over a chamber with a balance ledger, for those who only want to add voters, open
a poll, vote and close. A poll is a public proposal with an empty ban list that opens at once and
runs as long as the limits allow; closing one moves the clock past its end if need be.
-/

namespace QuadraticVoting

structure Desk where
  chamber : Chamber Ledger
  creator : Account
deriving DecidableEq

namespace Desk

def withChamber (d : Desk) (c : Chamber Ledger) : Desk := { d with chamber := c }

/-- A change of the desk's chamber. -/
def via {α : Type} (d : Desk) (r : Reply (Chamber Ledger) α) : Reply Desk α :=
  r.within d.withChamber

variable [Host]

/-- Register an account and mint it an amount. -/
def addVoter (d : Desk) (who : Account) (amount : Int) : Reply Desk Unit :=
  (d.via (d.chamber.registerVoter .root who)).andThen fun d _ =>
    Reply.map (f := fun _ => ()) <| d.via (d.chamber.onFunds (·.mint who amount))

/-- Open a poll; the answer is its id. -/
def createProposal (d : Desk) (data : Payload) : Reply Desk Int :=
  (d.via (d.chamber.registerVoter .root d.creator)).andThen fun d _ =>
    .check d (Origin.signed d.creator) fun origin =>
      let now := d.chamber.assembly.now
      d.via <| d.chamber.createProposal origin
        ⟨data, .kind .publicVote, .accounts [], now, now + d.chamber.assembly.limits.maximum⟩

def vote (d : Desk) (p : Int) (voter : Account) (aye weight : Value) : Reply Desk Unit :=
  .check d (Origin.signed voter) fun origin =>
    Reply.map (f := fun _ => ()) <| d.via (d.chamber.castVote origin p aye weight)

/-- Close a proposal, past its end; the answer is whether it passed. -/
def closeVote (d : Desk) (p : Int) : Reply Desk Bool :=
  .check d (d.chamber.assembly.requireProposal p) fun proposal =>
    let stage := proposal.stageAt d.chamber.assembly.now
    let moved :=
      if stage = .pending || stage = .active then d.via (d.chamber.setBlock (proposal.stop + 1))
      else .done d ()
    moved.andThen fun d _ => d.via (d.chamber.closeProposal .root p)

end Desk

end QuadraticVoting
