import QuadraticVoting.Assembly.Run

/-!
# Snapshots

The document that a chamber hands to its host: the block height, the voters, the proposals and the
live ballots, and how many events the journal holds. Proposals and ballots stand in the order of
the ids; ballots on one proposal stand in the order in which they were first cast.
-/

namespace QuadraticVoting

namespace Assembly

/-- The entries of a map in the order of their keys. -/
def byId {α : Type} (m : OrdMap Int α) : List (Int × α) :=
  m.entries.mergeSort fun a b => a.1 ≤ b.1

def proposalsValue (s : Assembly) : Value :=
  .table [
    ("nextProposalId", .int s.nextId),
    ("proposals", .table ((byId s.proposals).map fun e => (toString e.1, e.2.toValue)))]

def ballotsValue (s : Assembly) : Value :=
  let list (m : OrdMap Account Ballot) : Value := .list (m.values.map Ballot.toValue)
  .table [("votes", .table ((byId s.ballots).map fun e => (toString e.1, list e.2)))]

def toValue (s : Assembly) : Value :=
  .table [
    ("currentBlock", .int s.now),
    ("registry", s.registry.toValue),
    ("proposals", s.proposalsValue),
    ("votes", s.ballotsValue),
    ("eventCount", .int s.journal.length)]

/-- One-line descriptions of an assembly, of its proposals and of its ballots. -/
def describe (s : Assembly) : Except Fault Text :=
  Fault.writing [s.now]
    s!"<GovernanceRuntime block={s.now} voters={s.registry.size} proposals={s.proposals.size}>"

def describeProposals (s : Assembly) : Except Fault Text :=
  Fault.writing [s.nextId] s!"<ProposalStore proposals={s.proposals.size} next={s.nextId}>"

def describeBallots (s : Assembly) : Text := s!"<VotingEngine proposals={s.ballots.size}>"

end Assembly

end QuadraticVoting
