import QuadraticVoting.Account
import QuadraticVoting.AccountList
import QuadraticVoting.Tally
import QuadraticVoting.Text.Bytes

/-!
# Proposals

A public proposal reads its account list as a ban list, a private one as an allow list. What stage
a proposal is in follows from the block height, but for a closed one, which stays closed.
-/

namespace QuadraticVoting

inductive Kind
  | publicVote
  | privateVote
deriving DecidableEq, Inhabited

namespace Kind

def name : Kind → String
  | publicVote => "PUBLIC"
  | privateVote => "PRIVATE"

/-- The kind that an integer stands for. -/
def ofInt? (n : Int) : Option Kind :=
  if n = 0 then some publicVote else if n = 1 then some privateVote else none

/-- What an account list means for a proposal of this kind. -/
def listName : Kind → String
  | publicVote => "ban"
  | privateVote => "allow"

/-- Whether an account may vote, given whether it is on the list. -/
def admits (kind : Kind) (listed : Bool) : Bool :=
  match kind with
  | publicVote => !listed
  | privateVote => listed

end Kind

/-- A kind as a caller gives it: one of the two, or any value that may stand for one. -/
inductive KindArg
  | kind (k : Kind)
  | value (v : Value)
deriving DecidableEq

namespace KindArg

def kind? : KindArg → Option Kind
  | kind k => some k
  | value v => v.equalInt?.bind Kind.ofInt?

def toValue : KindArg → Value
  | kind k => .text k.name
  | value v => v

def require (k : KindArg) : Except Fault Kind :=
  match k.kind? with
  | some k => .ok k
  | none => .error (.notAKind k.toValue)

/-- Whether the list admits an account under a kind that was never checked. -/
def admits (k : KindArg) (accounts : AccountList) (who : Account) : Except Fault Bool :=
  match k.kind? with
  | some k => .ok (k.admits (accounts.contains who))
  | none => .error (.unknownKind k.toValue)

end KindArg

/-- Data kept with a proposal, as a caller gives it. -/
inductive Payload
  | text (t : Text)
  | bytes (l : List UInt8)
deriving DecidableEq

namespace Payload

/-- A text counts as its UTF-8 bytes, if it has any. -/
def toBytes : Payload → Except Fault (List UInt8)
  | text t =>
    match t.utf8? with
    | some l => .ok l
    | none => .error (.notEncodable t)
  | bytes l => .ok l

def bounded (p : Payload) (limit : Int) : Except Fault (List UInt8) :=
  match p.toBytes with
  | .error f => .error f
  | .ok l => if (l.length : Int) > limit then .error (.payloadTooLarge l.length limit) else .ok l

/-- The form shown for data held under a limit. -/
def describe (data : List UInt8) (limit : Int) : Except Fault Text :=
  Fault.writing [limit] s!"BoundedBytes({Text.quoteBytes data}, capacity={limit})"

theorem bounded_eq_ok_iff {p : Payload} {limit : Int} {l : List UInt8} :
    p.bounded limit = .ok l ↔ p.toBytes = .ok l ∧ (l.length : Int) ≤ limit := by
  unfold bounded
  split
  · next f e => simp [e]
  · next k e =>
    rw [e]
    split
    · refine ⟨nofun, fun h => ?_⟩
      cases h.1
      exact absurd h.2 (by omega)
    · refine ⟨fun h => ?_, fun h => h.1⟩
      cases h
      exact ⟨rfl, by omega⟩

end Payload

structure Proposal where
  id : Int
  creator : Account
  data : List UInt8
  kind : Kind
  accounts : AccountList
  start : Int
  stop : Int
  status : Stage := .pending
  tally : Tally := .zero
deriving DecidableEq

namespace Proposal

def isClosed (p : Proposal) : Bool := p.status = .closed

def hasStarted (p : Proposal) (now : Int) : Bool := p.start ≤ now

def hasEnded (p : Proposal) (now : Int) : Bool := now > p.stop

def duration (p : Proposal) : Int := p.stop - p.start

/-- The stage at a block height. -/
def stageAt (p : Proposal) (now : Int) : Stage :=
  if p.isClosed then .closed
  else if now < p.start then .pending
  else if now ≤ p.stop then .active
  else .ended

def isPendingAt (p : Proposal) (now : Int) : Bool := p.stageAt now = .pending

def isActiveAt (p : Proposal) (now : Int) : Bool := p.stageAt now = .active

def permits (p : Proposal) (who : Account) : Bool := p.kind.admits (p.accounts.contains who)

def describe (p : Proposal) : Except Fault Text :=
  Fault.writing [p.id, p.start, p.stop]
    s!"<Proposal #{p.id} kind={p.kind.name} blocks={p.start}..{p.stop} status={p.status.name}>"

def toValue (p : Proposal) : Value :=
  .table [
    ("id", .int p.id),
    ("creator", p.creator.toValue),
    ("offchainData", .text (Text.hexText p.data)),
    ("kind", .text p.kind.name),
    ("accountList", p.accounts.toValue),
    ("startBlock", .int p.start),
    ("endBlock", .int p.stop),
    ("status", .text p.status.name),
    ("tally", p.tally.toValue)]

theorem stageAt_of_isClosed {p : Proposal} (h : p.isClosed = true) (now : Int) :
    p.stageAt now = .closed := by simp [stageAt, h]

theorem stageAt_eq_closed_iff {p : Proposal} {now : Int} :
    p.stageAt now = .closed ↔ p.isClosed = true := by
  unfold stageAt
  split
  · next h => simp [h]
  · next h =>
    simp only [h]
    split
    · simp
    · split <;> simp

theorem stageAt_eq_active_iff {p : Proposal} {now : Int} :
    p.stageAt now = .active ↔ p.isClosed = false ∧ p.start ≤ now ∧ now ≤ p.stop := by
  unfold stageAt
  cases p.isClosed
  · simp only [Bool.false_eq_true, if_false, true_and]
    split
    · exact ⟨nofun, fun h => absurd h.1 (by omega)⟩
    · split
      · exact ⟨fun _ => by omega, fun _ => rfl⟩
      · exact ⟨nofun, fun h => absurd h.2 (by omega)⟩
  · simp

/-- As the block height grows, the stage never goes back. -/
theorem stageAt_mono (p : Proposal) {now later : Int} (h : now ≤ later) :
    p.stageAt now ≤ p.stageAt later := by
  show (p.stageAt now).rank ≤ (p.stageAt later).rank
  unfold stageAt
  cases p.isClosed
  · simp only [Bool.false_eq_true, if_false]
    repeat' split
    all_goals simp only [Stage.rank]
    all_goals omega
  · simp

end Proposal

end QuadraticVoting
