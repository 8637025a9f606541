import QuadraticVoting.Log.Level
import QuadraticVoting.Origin
import QuadraticVoting.Proposal

/-!
# Notices

What the library tells its operator while it works. Each notice is a fact; its level, the name of
the logger it goes to and its text follow from the fact.
-/

namespace QuadraticVoting.Log

inductive Notice
  | voterRegistered (who : Account)
  | voterKnown (who : Account)
  | voterUnregistered (who : Account)
  | proposalCreated (proposal : Int) (creator : Account) (kind : Kind) (start stop : Int)
  | proposalCancelled (proposal : Int)
  | proposalClosed (proposal : Int) (auto : Bool) (tally : Tally)
  | proposalKnownClosed (proposal : Int)
  | accountListSet (proposal : Int) (count : Nat) (kind : Kind)
  | voteCast (ballot : Ballot) (tally : Tally)
  | voteWithdrawn (voter : Account) (proposal released : Int) (tally : Tally)
  | fundsClaimed (voter : Account) (proposal amount : Int)
  | clockSet (block : Int)
  | minted (account : Account) (amount : Int) (symbol : Text)
  | locked (account : Account) (amount frozen : Int) (symbol : Text)
  | unlocked (account : Account) (amount frozen : Int) (symbol : Text)
  | invariantViolated (call : String) (origin : Origin)
  | settingsMissing (path : Text)
deriving DecidableEq

namespace Notice

def level : Notice → Level
  | voterKnown .. | proposalKnownClosed .. | clockSet .. | minted .. | locked .. | unlocked .. =>
    .debug
  | settingsMissing .. => .warning
  | invariantViolated .. => .critical
  | _ => .info

/-- The logger that a notice goes to. -/
def logger : Notice → String
  | voterRegistered .. | voterKnown .. | voterUnregistered .. => "qvote.governance.registry"
  | proposalCreated .. | proposalCancelled .. | proposalClosed .. | proposalKnownClosed .. =>
    "qvote.governance.proposals"
  | accountListSet .. => "qvote.governance.policy"
  | voteCast .. | voteWithdrawn .. => "qvote.governance.voting"
  | fundsClaimed .. => "qvote.governance.claims"
  | clockSet .. => "qvote.governance.lifecycle"
  | minted .. | locked .. | unlocked .. => "qvote.tokens.ledger"
  | invariantViolated .. => "qvote.governance.runtime"
  | settingsMissing .. => "qvote.config.loader"

/-- The integers, other than small counts, that the text of a notice is written with. -/
def integers : Notice → List Int
  | proposalCreated p _ _ start stop => [p, start, stop]
  | proposalCancelled p | proposalKnownClosed p | accountListSet p .. => [p]
  | proposalClosed p _ tally => [p, tally.aye, tally.total]
  | voteCast b tally => [b.weight, b.proposal, b.locked, tally.aye, tally.total]
  | voteWithdrawn _ p released tally => [p, released, tally.aye, tally.total]
  | fundsClaimed _ p amount => [amount, p]
  | clockSet block => [block]
  | minted _ amount _ => [amount]
  | locked _ amount frozen _ | unlocked _ amount frozen _ => [amount, frozen]
  | voterRegistered _ | voterKnown _ | voterUnregistered _ | invariantViolated ..
  | settingsMissing _ => []

def text : Notice → Text
  | voterRegistered who => "Voter registered: " ++ who.quoted
  | voterKnown who => "Voter " ++ who.quoted ++ " already registered"
  | voterUnregistered who => "Voter unregistered: " ++ who.quoted
  | proposalCreated p creator kind start stop =>
    s!"Proposal #{p} created by " ++ creator.quoted ++ s!" ({kind.name}, blocks {start}..{stop})"
  | proposalCancelled p => s!"Proposal #{p} cancelled"
  | proposalClosed p auto tally =>
    let how := if auto then " (majority reached)" else ""
    let verdict := if tally.hasMajority then "approved" else "rejected"
    s!"Proposal #{p}: CLOSED{how} ratio={tally.ratio} {verdict}"
  | proposalKnownClosed p => s!"Proposal #{p} already CLOSED"
  | accountListSet p count kind =>
    s!"Proposal #{p}: account list set ({count} accounts, {kind.listName} list)"
  | voteCast b tally =>
    "Vote: " ++ b.voter.quoted ++
      s!" → {Ballot.direction b.aye} x{b.weight} on Proposal #{b.proposal} " ++
      s!"(locked {b.locked}, ratio={tally.ratio})"
  | voteWithdrawn voter p released tally =>
    "Vote withdrawn: " ++ voter.quoted ++
      s!" on Proposal #{p} (released {released}, ratio={tally.ratio})"
  | fundsClaimed voter p amount =>
    "Claim: " ++ voter.quoted ++ s!" released {amount} from Proposal #{p}"
  | clockSet block => s!"Clock set to block {block}"
  | minted account amount symbol => "Mint: " ++ account.quoted ++ s!" +{amount} " ++ symbol
  | locked account amount frozen symbol =>
    "Lock: " ++ account.quoted ++ s!" +{amount} " ++ symbol ++ s!" (frozen={frozen})"
  | unlocked account amount frozen symbol =>
    "Unlock: " ++ account.quoted ++ s!" -{amount} " ++ symbol ++ s!" (frozen={frozen})"
  | invariantViolated call origin => s!"Invariant violated during {call} by " ++ origin.describe
  | settingsMissing path => "Config file not found: " ++ path ++ ", using defaults"

end Notice

end QuadraticVoting.Log
