/-!
# Kinds of faults

The kinds of faults that a caller can tell apart. Those of the library form a tree under
`FaultKind.parent`; malformed arguments, and what the host's system refuses, stand outside it.
-/

namespace QuadraticVoting

inductive FaultKind
  | any
  | configuration
  | defect
  | ledger
  | governance
  | unauthorized
  | notRegistered
  | alreadyRegistered
  | proposalNotFound
  | notStarted
  | alreadyStarted
  | alreadyEnded
  | notEnded
  | alreadyClosed
  | notClosed
  | notAllowed
  | identicalVote
  | insufficientFunds
  | weightTooLarge
  | invalidWeight
  | listTooLarge
  | offchainDataTooLarge
  | startInPast
  | endBeforeStart
  | durationTooLong
  | durationTooShort
  | startTooFarInFuture
  | noVoteToClaim
  /-- An argument of the right shape with a value that is never accepted. -/
  | badValue
  /-- An argument of the wrong shape. -/
  | badShape
  /-- A value that has no fields where a table belongs. -/
  | notATable
  /-- A name that the library does not offer. -/
  | unknownName
  /-- A name of something that has no name of its own. -/
  | nameless
  | missingKey
  | isFolder
  | notAFolder
  | pathTaken
  | pathNotThere
  | notUtf8
  /-- A text that has no UTF-8 form. -/
  | notEncodable
  /-- A request that the host's system turns down. -/
  | system
  | outOfRange
  | outOfMemory
  | tooDeep
deriving DecidableEq

/-- The kind of which a kind is a special case; malformed arguments stand outside the tree. -/
def FaultKind.parent : FaultKind → Option FaultKind
  | .any | .badValue | .badShape | .notATable | .unknownName | .nameless | .missingKey
  | .isFolder | .notAFolder | .pathTaken | .pathNotThere | .notUtf8 | .notEncodable | .system
  | .outOfRange | .outOfMemory | .tooDeep => none
  | .configuration | .defect | .ledger | .governance => some .any
  | _ => some .governance

/-- The kinds from one up to the root of its tree. -/
def FaultKind.ancestry (k : FaultKind) : List FaultKind :=
  match k.parent with
  | none => [k]
  | some .any => [k, .any]
  | some p => [k, p, .any]

end QuadraticVoting
