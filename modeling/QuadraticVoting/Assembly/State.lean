import QuadraticVoting.Clock
import QuadraticVoting.Event
import QuadraticVoting.OrdMap
import QuadraticVoting.Registry
import QuadraticVoting.Settings.Limits

/-!
# The assembly

The state that governs: the limits, the block clock, the registered voters, the proposals by id,
the live ballots by proposal and voter, and the journal of what has happened. The funds that stand
behind the ballots are not part of it; `Chamber` puts the two together.

An id is handed out once and never again, also when its proposal has been cancelled.
-/

namespace QuadraticVoting

structure Assembly where
  limits : Limits
  clock : Clock
  registry : Registry
  proposals : OrdMap Int Proposal
  nextId : Int
  ballots : OrdMap Int (OrdMap Account Ballot)
  journal : List Event
deriving DecidableEq

namespace Assembly

/-- The id of the first proposal. -/
def firstId : Int := 0

def empty (limits : Limits) (clock : Clock) : Assembly :=
  ⟨limits, clock, .empty, .empty, firstId, .empty, []⟩

instance : Inhabited Assembly := ⟨empty default default⟩

def now (s : Assembly) : Int := s.clock.block

def append (s : Assembly) (events : List Event) : Assembly :=
  { s with journal := s.journal ++ events }

/-! ### Proposals -/

def proposal? (s : Assembly) (p : Int) : Option Proposal := s.proposals.get? p

def requireProposal (s : Assembly) (p : Int) : Except Fault Proposal :=
  match s.proposal? p with
  | some proposal => .ok proposal
  | none => .error (.proposalNotFound p)

def putProposal (s : Assembly) (p : Int) (proposal : Proposal) : Assembly :=
  { s with proposals := s.proposals.insert p proposal }

/-- The ids of the stored proposals in increasing order. -/
def ids (s : Assembly) : List Int := s.proposals.keys.mergeSort

def stageOf (s : Assembly) (p : Int) : Except Fault Stage := do
  return (← s.requireProposal p).stageAt s.now

/-! ### Ballots -/

def ballotsOn (s : Assembly) (p : Int) : List Ballot :=
  match s.ballots.get? p with
  | some m => m.values
  | none => []

def ballot? (s : Assembly) (p : Int) (voter : Account) : Option Ballot :=
  (s.ballots.get? p).bind (·.get? voter)

def hasVoted (s : Assembly) (p : Int) (voter : Account) : Bool := (s.ballot? p voter).isSome

def voterCount (s : Assembly) (p : Int) : Nat := (s.ballotsOn p).length

/-- What all live ballots on a proposal keep frozen. -/
def lockedOn (s : Assembly) (p : Int) : Int :=
  (s.ballotsOn p).foldr (fun b n => b.locked + n) 0

def putBallot (s : Assembly) (b : Ballot) : Assembly :=
  let m := (s.ballots.get? b.proposal).getD .empty
  { s with ballots := s.ballots.insert b.proposal (m.insert b.voter b) }

/-- A proposal whose last ballot goes has no entry any more. -/
def dropBallot (s : Assembly) (p : Int) (voter : Account) : Assembly :=
  match s.ballots.get? p with
  | none => s
  | some m =>
    let m' := m.erase voter
    { s with ballots := if m'.isEmpty then s.ballots.erase p else s.ballots.insert p m' }

/-- Remove and return a live ballot. -/
def takeBallot (s : Assembly) (p : Int) (voter : Account) : Option Ballot × Assembly :=
  match s.ballot? p voter with
  | none => (none, s)
  | some b => (some b, s.dropBallot p voter)

theorem requireProposal_eq_ok_iff {s : Assembly} {p : Int} {x : Proposal} :
    s.requireProposal p = .ok x ↔ s.proposal? p = some x := by
  unfold requireProposal
  split
  · next h => rw [h]; simp
  · next h => rw [h]; simp

theorem ballot?_putBallot (s : Assembly) (b : Ballot) (p : Int) (v : Account) :
    (s.putBallot b).ballot? p v =
      if p = b.proposal ∧ v = b.voter then some b else s.ballot? p v := by
  unfold putBallot ballot?
  simp only [OrdMap.get?_insert]
  by_cases hp : p = b.proposal
  · subst hp
    simp only [if_true, Option.bind_some, OrdMap.get?_insert, true_and]
    cases h : s.ballots.get? b.proposal <;> simp
  · simp [hp]

theorem ballot?_dropBallot (s : Assembly) (q : Int) (w : Account) (p : Int) (v : Account) :
    (s.dropBallot q w).ballot? p v = if p = q ∧ v = w then none else s.ballot? p v := by
  unfold dropBallot
  split
  · next h =>
    split
    · next e => rw [e.1]; simp [ballot?, h]
    · rfl
  · next m h =>
    by_cases hp : p = q
    · subst hp
      have hm : s.ballot? p v = m.get? v := by simp [ballot?, h]
      have he : (m.erase w).get? v = if v = w then none else m.get? v := OrdMap.get?_erase m w v
      simp only [true_and, hm]
      rw [← he]
      unfold ballot?
      dsimp only
      split
      · next hemp =>
        rw [OrdMap.get?_erase_self, Option.bind_none]
        symm
        rw [OrdMap.get?_eq_none_iff]
        simp only [OrdMap.isEmpty, List.isEmpty_iff] at hemp
        simp [OrdMap.keys, hemp]
      · rw [OrdMap.get?_insert_self, Option.bind_some]
    · have : ¬ (p = q ∧ v = w) := fun h => hp h.1
      rw [if_neg this]
      unfold ballot?
      dsimp only
      split
      · rw [OrdMap.get?_erase_of_ne _ hp]
      · rw [OrdMap.get?_insert_of_ne _ _ hp]

end Assembly

/-- An assembly with the funds behind its ballots. -/
structure Chamber (σ : Type) where
  assembly : Assembly
  funds : σ
deriving DecidableEq

namespace Chamber

variable {σ : Type}

def empty (limits : Limits) (clock : Clock) (funds : σ) : Chamber σ := ⟨.empty limits clock, funds⟩

def withAssembly (c : Chamber σ) (s : Assembly) : Chamber σ := { c with assembly := s }

def withFunds (c : Chamber σ) (f : σ) : Chamber σ := { c with funds := f }

end Chamber

end QuadraticVoting
