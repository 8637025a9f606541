import QuadraticVoting.Account
import QuadraticVoting.Fault.Kind
import QuadraticVoting.Log.Template.Failure
import QuadraticVoting.Stage

/-!
# Faults

Every way in which a call is refused, each with the facts that its message names. `Fault.kind`
sorts them into the kinds a caller can tell apart, and `Fault.message` is the wording. A message
that cannot be written makes a fault of its own: `Fault.told` is the fault that a caller is told of,
and being told of that changes nothing (`told_told`).

A fault of kind `defect` marks a broken invariant; all others are a caller's own doing.
-/

namespace QuadraticVoting

/-- The width of a balance. -/
def balanceBits : Nat := 128

/-- The most that a balance, and the sum of all balances, can be. -/
def maxBalance : Int := 0xFFFFFFFFFFFFFFFFFFFFFFFFFFFFFFFF

theorem maxBalance_eq : maxBalance = Int.ofNat (Nat.pow 2 balanceBits - 1) := rfl

inductive Fault
  | unsigned
  | cannotActFor (caller who : Account)
  | cannotEditList (caller : Account) (proposal : Int)
  | cannotCancel (caller : Account) (proposal : Int)
  | cannotClose (caller : Account) (proposal : Int)
  | notRegistered (who : Account)
  | proposalNotFound (proposal : Int)
  | notStarted (proposal start : Int)
  | alreadyStarted (proposal start : Int)
  | alreadyEnded (proposal stop : Int)
  | notEnded (proposal : Int) (stage : Stage) (stop : Int)
  | alreadyClosed (proposal : Int)
  | notClosed (proposal : Int)
  | notAllowed (voter : Account) (proposal : Int)
  | nothingToWithdraw (voter : Account) (proposal : Int)
  | sameVote (voter : Account) (proposal : Int)
  | cannotAfford (voter : Account) (available required weight proposal : Int)
  | cannotFreeze (account : Account) (available amount : Int) (symbol : Text)
  | weightTooLarge (weight : Int)
  | invalidWeight (given : Value)
  | listTooLarge (count : Nat) (limit : Int)
  | payloadTooLarge (size : Nat) (limit : Int)
  | startInPast (start now : Int)
  | endBeforeStart (stop start : Int)
  | durationTooLong (duration limit : Int)
  | durationTooShort (duration limit : Int)
  | startTooFar (delay limit : Int)
  | nothingToClaim (voter : Account) (proposal : Int)
  | tallyUnderflow (aye : Bool) (power ayePower totalPower : Int)
  | thawExceedsFrozen (account : Account) (amount frozen : Int) (symbol : Text)
  | emptySymbol
  | accountRequired
  | negativeMint
  | negativeLock
  | negativeUnlock
  | issuanceExceeded (account : Account) (amount : Int) (symbol : Text)
  | signerRequired
  | voterRequired
  | negativeBlock
  | clockBackwards
  | notAKind (given : Value)
  | unknownKind (given : Value)
  | listIsText
  | ledgerRequired
  | limitNotNatural (name : String)
  | minimumBelowOne
  | minimumAboveMaximum (minimum maximum : Int)
  | invalidLevel (level : Text)
  | notAnInteger (name : String) (given : Text)
  | malformedFile (path : Text)
  | tooManyDigits (count : Nat)
  | notAPath (given : Value)
  | sectionNotATable (name : String)
  | pathIsFolder (path : Text)
  | notAFolder (path : Text)
  | pathTaken (path : Text)
  | pathNotThere (path : Text)
  | nameTooLong (path : Text)
  | nullByte
  | unnamedVariable
  /-- The name of a variable that has an equals sign in it. -/
  | variableName (name : Text)
  | fileNotUtf8 (path : Text)
  | notEncodable (text : Text)
  | excess (what : Value.Excess)
  | unknownName (name : Text)
  /-- A word that names no stage. -/
  | unknownStage (word : Text)
  | nameless (name : String)
  /-- A name that is up to case a constant and is none, kept at a place in memory. -/
  | unreadableTruth (place : Nat)
  /-- A word that stands for a text where a level's number is needed. -/
  | levelIsText (text : String)
  /-- A word that stands for something with the given written form. -/
  | levelIsOther (literal : String)
  | levelNotANumber
  | unfilledTemplate (why : Log.Template.Failure)
  /-- A count of seconds with too many digits. -/
  | secondOutOfRange
  | yearTooFar
  | yearTooLong
  /-- A fault from outside this library. -/
  | foreign (kind : FaultKind) (text : String)
deriving DecidableEq

namespace Fault

def kind : Fault → FaultKind
  | unsigned | cannotActFor .. | cannotEditList .. | cannotCancel .. | cannotClose .. =>
    .unauthorized
  | notRegistered .. => .notRegistered
  | proposalNotFound .. => .proposalNotFound
  | notStarted .. => .notStarted
  | alreadyStarted .. => .alreadyStarted
  | alreadyEnded .. => .alreadyEnded
  | notEnded .. => .notEnded
  | alreadyClosed .. => .alreadyClosed
  | notClosed .. => .notClosed
  | notAllowed .. => .notAllowed
  | nothingToWithdraw .. | sameVote .. => .identicalVote
  | cannotAfford .. | cannotFreeze .. => .insufficientFunds
  | weightTooLarge .. => .weightTooLarge
  | invalidWeight .. => .invalidWeight
  | listTooLarge .. => .listTooLarge
  | payloadTooLarge .. => .offchainDataTooLarge
  | startInPast .. => .startInPast
  | endBeforeStart .. => .endBeforeStart
  | durationTooLong .. => .durationTooLong
  | durationTooShort .. => .durationTooShort
  | startTooFar .. => .startTooFarInFuture
  | nothingToClaim .. => .noVoteToClaim
  | tallyUnderflow .. | thawExceedsFrozen .. => .defect
  | emptySymbol | accountRequired | negativeMint | negativeLock | negativeUnlock
  | issuanceExceeded .. => .ledger
  | signerRequired | voterRequired | negativeBlock | clockBackwards | notAKind ..
  | unknownKind .. => .badValue
  | listIsText | ledgerRequired => .badShape
  | limitNotNatural .. | minimumBelowOne | minimumAboveMaximum .. | invalidLevel ..
  | notAnInteger .. | malformedFile .. => .configuration
  | tooManyDigits .. | unreadableTruth .. => .badValue
  | notAPath .. => .badShape
  | sectionNotATable .. => .notATable
  | pathIsFolder .. => .isFolder
  | notAFolder .. => .notAFolder
  | pathTaken .. => .pathTaken
  | pathNotThere .. => .pathNotThere
  | nameTooLong .. | unnamedVariable | yearTooFar => .system
  | nullByte | variableName .. | levelIsText .. => .badValue
  | levelIsOther .. | levelNotANumber => .badShape
  | fileNotUtf8 .. => .notUtf8
  | notEncodable .. => .notEncodable
  | excess .integer => .badValue
  | excess .nesting => .tooDeep
  | unknownName .. => .unknownName
  | unknownStage .. => .missingKey
  | nameless .. => .nameless
  | unfilledTemplate why => why.kind
  | secondOutOfRange | yearTooLong => .outOfRange
  | foreign kind _ => kind

def direction (aye : Bool) : String := if aye then "aye" else "nay"

/-- Why a text has no UTF-8 form: the first surrogate in it, or the first run of them. -/
def encodingText (t : Text) : String :=
  let start := t.toList.findIdx CodePoint.isSurrogate
  let run := (t.toList.drop start).takeWhile CodePoint.isSurrogate
  let place := match run with
    | [p] => s!"character '{String.ofList (Text.escapeNumber p.number)}' in position {start}"
    | _ => s!"characters in position {start}-{start + run.length - 1}"
  s!"'utf-8' codec can't encode {place}: surrogates not allowed"

def message : Fault → Text
  | unsigned => "Call requires a signed origin"
  | cannotActFor caller who => caller.quoted ++ " cannot act for " ++ who.quoted
  | cannotEditList caller p => caller.quoted ++ s!" cannot edit the account list of Proposal #{p}"
  | cannotCancel caller p => caller.quoted ++ s!" cannot cancel Proposal #{p}"
  | cannotClose caller p => caller.quoted ++ s!" cannot close Proposal #{p}"
  | notRegistered who => who.quoted ++ " is not a registered voter"
  | proposalNotFound p => s!"Proposal #{p} does not exist"
  | notStarted p start => s!"Proposal #{p} opens at block {start}"
  | alreadyStarted p start => s!"Proposal #{p} has already started at block {start}"
  | alreadyEnded p stop => s!"Proposal #{p} ended at block {stop}"
  | notEnded p stage stop => s!"Proposal #{p} is {stage.name} until block {stop}"
  | alreadyClosed p => s!"Proposal #{p} is closed"
  | notClosed p => s!"Proposal #{p} is not closed"
  | notAllowed voter p => voter.quoted ++ s!" may not vote on Proposal #{p}"
  | nothingToWithdraw voter p => voter.quoted ++ s!" has no vote to withdraw on Proposal #{p}"
  | sameVote voter p => voter.quoted ++ s!" already voted this way on Proposal #{p}"
  | cannotAfford voter available required weight p =>
    voter.quoted ++ s!" spendable {available} < required {required} " ++
      s!"for weight {weight} on Proposal #{p}"
  | cannotFreeze account available amount symbol =>
    account.quoted ++ s!" spendable {available} < lock amount {amount} " ++ symbol
  | weightTooLarge weight => s!"Weight {weight} squared exceeds {maxBalance}"
  | invalidWeight given => s!"Weight must be a non-negative integer, got {given.literal}"
  | listTooLarge count limit => s!"Account list holds {count} accounts, limit is {limit}"
  | payloadTooLarge size limit => s!"Offchain data is {size} bytes, limit is {limit}"
  | startInPast start now => s!"Start block {start} is before current block {now}"
  | endBeforeStart stop start => s!"End block {stop} must be after start block {start}"
  | durationTooLong duration limit => s!"Duration {duration} exceeds maximum {limit} blocks"
  | durationTooShort duration limit => s!"Duration {duration} is below minimum {limit} blocks"
  | startTooFar delay limit => s!"Start delay {delay} exceeds limit {limit} blocks"
  | nothingToClaim voter p => voter.quoted ++ s!" has nothing to claim on Proposal #{p}"
  | tallyUnderflow aye power ayePower totalPower =>
    s!"Tally underflow removing {power} ({direction aye}) from ({ayePower}, {totalPower})"
  | thawExceedsFrozen account amount frozen symbol =>
    s!"Unlock of {amount} " ++ symbol ++ s!" exceeds frozen {frozen} for " ++ account.quoted
  | emptySymbol => "Ledger symbol cannot be empty"
  | accountRequired => "Account is required"
  | negativeMint => "Mint amount cannot be negative"
  | negativeLock => "Lock amount cannot be negative"
  | negativeUnlock => "Unlock amount cannot be negative"
  | issuanceExceeded account amount symbol =>
    s!"Minting {amount} " ++ symbol ++ " to " ++ account.text ++
      s!" would push total issuance past {maxBalance}"
  | signerRequired => "Signed origin requires an account"
  | voterRequired => "Voter account is required"
  | negativeBlock => "Block number cannot be negative"
  | clockBackwards => "Clock cannot move backwards"
  | notAKind given => s!"{given.literal} is not a valid ProposalKind"
  | unknownKind given => s!"Unknown proposal kind: {given.literal}"
  | listIsText => "Account list must be an iterable of accounts, not a single string"
  | ledgerRequired => "VotingInterface needs a runtime backed by a BalanceLedger"
  | limitNotNatural name => s!"governance.{name} must be a non-negative integer"
  | minimumBelowOne => "governance.minimum_duration must be >= 1"
  | minimumAboveMaximum minimum maximum =>
    s!"governance.minimum_duration ({minimum}) exceeds maximum_duration ({maximum})"
  | invalidLevel level => "Invalid log level: " ++ level
  | notAnInteger name given => s!"{name} must be an integer, got {Text.quote given}"
  | malformedFile path => "Malformed config file " ++ path
  | tooManyDigits count =>
    s!"{Value.digitLimit}: value has {count} digits; {Value.digitAdvice}"
  | excess what => what.message
  | notAPath given =>
    s!"expected str, bytes or os.PathLike object, not {given.typeName}"
  | sectionNotATable name => s!"section {name} is not a table"
  | pathIsFolder path => path ++ " is a folder"
  | notAFolder path => path ++ " leads through a file"
  | pathTaken path => path ++ " is a file"
  | pathNotThere path => path ++ " is not there"
  | nameTooLong path => path ++ " is too long a name"
  | nullByte => "embedded null byte"
  | unnamedVariable => "a variable has no name"
  | variableName _ => "illegal environment variable name"
  | fileNotUtf8 path => path ++ " is not UTF-8"
  | notEncodable text => encodingText text
  | unknownName name => s!"module 'qvote' has no attribute {Text.quote name}"
  | unknownStage word => s!"no stage is named {Text.quote word}"
  | unreadableTruth place =>
    s!"malformed node or string on line 1: <ast.Name object at {Text.hexadecimal place}>"
  | nameless name => s!"{name} has no name"
  | levelIsText text => s!"Unknown level: {Text.quote text}"
  | levelIsOther literal => s!"Level not an integer or a valid string: {literal}"
  | levelNotANumber => "level must be an integer"
  | unfilledTemplate why => why.message
  | secondOutOfRange => "timestamp out of range for platform time_t"
  | yearTooFar => "[Errno 75] Value too large for defined data type"
  | yearTooLong => "signed integer is greater than maximum"
  | foreign _ text => text

/-- The values, other than texts and small counts, that the message of a fault is written with. -/
def named : Fault → List Value
  | cannotEditList _ p | cannotCancel _ p | cannotClose _ p | proposalNotFound p
  | alreadyClosed p | notClosed p | notAllowed _ p | nothingToWithdraw _ p | sameVote _ p
  | nothingToClaim _ p => [.int p]
  | notStarted p block | alreadyStarted p block | alreadyEnded p block | notEnded p _ block =>
    [.int p, .int block]
  | cannotAfford _ available required weight p =>
    [.int available, .int required, .int weight, .int p]
  | cannotFreeze _ available amount _ => [.int available, .int amount]
  | thawExceedsFrozen _ amount frozen _ => [.int amount, .int frozen]
  | issuanceExceeded _ amount _ => [.int amount]
  | weightTooLarge weight => [.int weight]
  | invalidWeight given | notAKind given | unknownKind given => [given]
  | listTooLarge _ limit | payloadTooLarge _ limit => [.int limit]
  | startInPast a b | endBeforeStart a b | durationTooLong a b | durationTooShort a b
  | startTooFar a b | minimumAboveMaximum a b => [.int a, .int b]
  | tallyUnderflow _ power ayePower totalPower => [.int power, .int ayePower, .int totalPower]
  | _ => []

variable [Host]

/-- The fault that a caller is told of: a message with a value in it that is too large to be
written is no message, and that it is so large is then the fault. -/
def told (f : Fault) : Fault :=
  match f.named.findSome? Value.excess? with
  | none => f
  | some what => excess what

theorem told_told (f : Fault) : f.told.told = f.told := by
  cases h : f.named.findSome? Value.excess? with
  | none =>
    have e : f.told = f := by rw [told, h]
    rw [e, e]
  | some what =>
    have e : f.told = excess what := by rw [told, h]
    rw [e]
    rfl

/-- A text with integers in it, unless one of them is too large to be written. -/
def writing (ns : List Int) (t : Text) : Except Fault Text :=
  if ns.all Value.isWritable then .ok t else .error (excess .integer)

end Fault

end QuadraticVoting
