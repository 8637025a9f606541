import QuadraticVoting.Proposal

/-!
# Governance events

What a successful call adds to the assembly's journal, for the host to pass on.
-/

namespace QuadraticVoting

inductive Event
  | voterRegistered (who : Account)
  | voterUnregistered (who : Account)
  | proposalCreated (proposal : Int) (creator : Account) (data : List UInt8) (kind : Kind)
      (accounts : AccountList) (start stop : Int)
  | proposalCancelled (proposal : Int)
  | accountListSet (proposal : Int) (accounts : AccountList)
  | voteCast (ballot : Ballot) (delta : Int)
  | voteWithdrawn (proposal : Int) (voter : Account) (released : Int)
  | proposalClosed (proposal : Int) (tally : Tally) (approved auto : Bool)
  | fundsClaimed (proposal : Int) (voter : Account) (amount : Int)
deriving DecidableEq

inductive EventKind
  | voterRegistered
  | voterUnregistered
  | proposalCreated
  | proposalCancelled
  | accountListSet
  | voteCast
  | voteWithdrawn
  | proposalClosed
  | fundsClaimed
deriving DecidableEq

namespace Event

def kind : Event → EventKind
  | voterRegistered .. => .voterRegistered
  | voterUnregistered .. => .voterUnregistered
  | proposalCreated .. => .proposalCreated
  | proposalCancelled .. => .proposalCancelled
  | accountListSet .. => .accountListSet
  | voteCast .. => .voteCast
  | voteWithdrawn .. => .voteWithdrawn
  | proposalClosed .. => .proposalClosed
  | fundsClaimed .. => .fundsClaimed

/-- The proposal that an event is about, if it is about one. -/
def proposal? : Event → Option Int
  | voterRegistered _ | voterUnregistered _ => none
  | proposalCreated p .. | proposalCancelled p | accountListSet p _ | voteWithdrawn p ..
  | proposalClosed p .. | fundsClaimed p .. => some p
  | voteCast b _ => some b.proposal

/-- The latest event of a kind. -/
def latest? (k : EventKind) (journal : List Event) : Option Event :=
  journal.reverse.find? (·.kind = k)

def toValue : Event → Value
  | voterRegistered who =>
    .table [("event", .text "NewVoterRegistered"), ("who", who.toValue)]
  | voterUnregistered who =>
    .table [("event", .text "VoterUnregistered"), ("who", who.toValue)]
  | proposalCreated p creator data kind accounts start stop =>
    .table [("event", .text "NewProposal"), ("proposalId", .int p),
      ("creator", creator.toValue), ("offchainData", .text (Text.hexText data)),
      ("kind", .text kind.name), ("accountList", accounts.toValue),
      ("startBlock", .int start), ("endBlock", .int stop)]
  | proposalCancelled p =>
    .table [("event", .text "ProposalCancelled"), ("proposalId", .int p)]
  | accountListSet p accounts =>
    .table [("event", .text "AccountListSet"), ("proposalId", .int p),
      ("accountList", accounts.toValue)]
  | voteCast b delta =>
    .table [("event", .text "VoteCast"), ("proposalId", .int b.proposal),
      ("voter", b.voter.toValue), ("vote", .text (Ballot.direction b.aye)),
      ("weight", .int b.weight), ("lockedDelta", .int delta)]
  | voteWithdrawn p voter released =>
    .table [("event", .text "VoteWithdrawn"), ("proposalId", .int p),
      ("voter", voter.toValue), ("released", .int released)]
  | proposalClosed p tally approved auto =>
    .table [("event", .text "ProposalClosed"), ("proposalId", .int p),
      ("ratio", tally.ratioValue), ("approved", .bool approved), ("auto", .bool auto)]
  | fundsClaimed p voter amount =>
    .table [("event", .text "FundsClaimed"), ("proposalId", .int p),
      ("voter", voter.toValue), ("amount", .int amount)]

end Event

end QuadraticVoting
