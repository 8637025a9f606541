import Mathlib.Computability.RegularExpressions
import QuadraticVoting.Event

/-!
# The order of events

In which order the journal may speak of one proposal (`Protocol.ofProposal`) and of one voter's
lock on it (`Protocol.ofVoter`), as regular expressions over the kinds of event.

`Protocol.Turn` is what one change may make of a proposal at a block height, with the kinds of the
events that tell it. `Protocol.Placed` ties what has become of a proposal to what has been said of
it since it was created; a turn keeps the two tied (`Placed.turn`), and so does a clock that moves
forward (`Placed.mono`), but not one that moves back.
-/

namespace QuadraticVoting.Protocol

open RegularExpression (char star matches'_mul matches'_star matches'_char matches'_add
  matches'_epsilon)

/-! ### The two languages -/

def listing : RegularExpression EventKind := star (char .accountListSet)

def polling : RegularExpression EventKind := star (char .voteCast + char .voteWithdrawn)

def settling : RegularExpression EventKind := char .proposalClosed * star (char .fundsClaimed)

/-- What may follow the creation of a proposal: its list is set, and then it is taken off the
agenda, or it is voted on, and perhaps closed and claimed on. -/
def sinceCreation : RegularExpression EventKind :=
  listing * (1 + char .proposalCancelled + polling * (1 + settling))

def ofProposal : RegularExpression EventKind := char .proposalCreated * sinceCreation

def casting : RegularExpression EventKind := char .voteCast * star (char .voteCast)

/-- Votes that have been withdrawn. -/
def withdrawing : RegularExpression EventKind := star (casting * char .voteWithdrawn)

/-- A voter withdraws nothing but a live vote, and claims once and last, and for a live vote. -/
def ofVoter : RegularExpression EventKind :=
  withdrawing * (1 + casting * (1 + char .fundsClaimed))

/-! ### Longer words -/

section Words

variable {P Q R : RegularExpression EventKind} {w x : List EventKind} {k : EventKind}

theorem mem_char (k : EventKind) : [k] ∈ (char k).matches' := rfl

theorem nil_mem_star (P : RegularExpression EventKind) : [] ∈ (star P).matches' := by
  rw [matches'_star]
  exact Language.nil_mem_kstar _

theorem star_append (hw : w ∈ (star P).matches') (hx : x ∈ P.matches') :
    w ++ x ∈ (star P).matches' := by
  rw [matches'_star, Language.mem_kstar] at hw ⊢
  obtain ⟨L, rfl, hL⟩ := hw
  exact ⟨L ++ [x], by simp, List.forall_mem_append.2 ⟨hL, List.forall_mem_singleton.2 hx⟩⟩

theorem mul_append (hw : w ∈ P.matches') (hx : x ∈ Q.matches') : w ++ x ∈ (P * Q).matches' := by
  rw [matches'_mul]
  exact Language.append_mem_mul hw hx

theorem append_of_mul (hw : w ∈ (P * Q).matches')
    (hq : ∀ b, b ∈ Q.matches' → b ++ x ∈ R.matches') : w ++ x ∈ (P * R).matches' := by
  rw [matches'_mul, Language.mem_mul] at hw
  obtain ⟨a, ha, b, hb, rfl⟩ := hw
  rw [List.append_assoc]
  exact mul_append ha (hq b hb)

theorem mul_nil (hw : w ∈ P.matches') (hq : [] ∈ Q.matches') : w ∈ (P * Q).matches' := by
  have h := mul_append hw hq
  rwa [List.append_nil] at h

theorem mul_mono (hw : w ∈ (P * Q).matches') (hq : ∀ b, b ∈ Q.matches' → b ∈ R.matches') :
    w ∈ (P * R).matches' := by
  have h := append_of_mul (x := []) hw (R := R) fun b hb => by
    rw [List.append_nil]
    exact hq b hb
  rwa [List.append_nil] at h

theorem add_left (hw : w ∈ P.matches') : w ∈ (P + Q).matches' := by
  rw [matches'_add]
  exact .inl hw

theorem add_right (hw : w ∈ Q.matches') : w ∈ (P + Q).matches' := by
  rw [matches'_add]
  exact .inr hw

theorem nil_mem_one : [] ∈ (1 : RegularExpression EventKind).matches' := by
  rw [matches'_epsilon]
  exact Language.nil_mem_one

theorem cons_mem (hw : w ∈ P.matches') : k :: w ∈ (char k * P).matches' :=
  mul_append (mem_char k) hw

theorem mem_of_char_mul (hw : w ∈ (char k * P).matches') : k ∈ w := by
  rw [matches'_mul, Language.mem_mul] at hw
  obtain ⟨a, ha, b, -, rfl⟩ := hw
  rw [matches'_char] at ha
  cases ha
  exact List.mem_cons_self

end Words

/-! ### Turns of a proposal -/

/-- Cast or withdrawn. -/
def isVote : EventKind → Bool
  | .voteCast | .voteWithdrawn => true
  | .voterRegistered | .voterUnregistered | .proposalCreated | .proposalCancelled
  | .accountListSet | .proposalClosed | .fundsClaimed => false

/-- What a change may make of a proposal, and the kinds of the events that tell it. -/
inductive Turn (now : Int) : Option Proposal → List EventKind → Option Proposal → Prop
  | still (x : Option Proposal) : Turn now x [] x
  | listed {x y : Proposal} (hx : x.isClosed = false) (hs : now < x.start)
      (hy : y.isClosed = false) : Turn now (some x) [.accountListSet] (some y)
  | cancelled {x : Proposal} (hx : x.isClosed = false) (hs : now < x.start) :
      Turn now (some x) [.proposalCancelled] none
  | voted {x y : Proposal} {k : EventKind} (hk : isVote k = true) (hx : x.isClosed = false)
      (hs : y.start ≤ now) (hy : y.isClosed = false) : Turn now (some x) [k] (some y)
  | decided {x y : Proposal} {k : EventKind} (hk : isVote k = true) (hx : x.isClosed = false)
      (hy : y.isClosed = true) : Turn now (some x) [k, .proposalClosed] (some y)
  | closed {x y : Proposal} (hx : x.isClosed = false) (hy : y.isClosed = true) :
      Turn now (some x) [.proposalClosed] (some y)
  | claimed {x : Proposal} (hx : x.isClosed = true) : Turn now (some x) [.fundsClaimed] (some x)

/-- What may have been said of a proposal since its creation, by what has become of it. -/
inductive Placed (now : Int) : Option Proposal → List EventKind → Prop
  | absent : Placed now none []
  | drafted {x : Proposal} {w : List EventKind} (hx : x.isClosed = false)
      (hw : w ∈ listing.matches') : Placed now (some x) w
  | polled {x : Proposal} {w : List EventKind} (hx : x.isClosed = false) (hs : x.start ≤ now)
      (hw : w ∈ (listing * polling).matches') : Placed now (some x) w
  | settled {x : Proposal} {w : List EventKind} (hx : x.isClosed = true)
      (hw : w ∈ (listing * (polling * settling)).matches') : Placed now (some x) w
  | cancelled {w : List EventKind}
      (hw : w ∈ (listing * char EventKind.proposalCancelled).matches') :
      Placed now none w

variable {now later : Int} {x y : Option Proposal} {w k : List EventKind}

theorem vote_mem {k : EventKind} (hk : isVote k = true) :
    [k] ∈ (char .voteCast + char .voteWithdrawn : RegularExpression EventKind).matches' := by
  cases k with
  | voteCast => exact add_left (mem_char _)
  | voteWithdrawn => exact add_right (mem_char _)
  | voterRegistered | voterUnregistered | proposalCreated | proposalCancelled | accountListSet
  | proposalClosed | fundsClaimed => cases hk

theorem polling_append {k : EventKind} (hk : isVote k = true)
    (hw : w ∈ (listing * polling).matches') : w ++ [k] ∈ (listing * polling).matches' :=
  append_of_mul hw fun _ hb => star_append hb (vote_mem hk)

theorem settling_append (hw : w ∈ (listing * polling).matches') :
    w ++ [.proposalClosed] ∈ (listing * (polling * settling)).matches' :=
  append_of_mul hw fun _ hb => mul_append hb (mul_nil (mem_char _) (nil_mem_star _))

theorem Turn.not_created (h : Turn now x k y) : .proposalCreated ∉ k := by
  cases h with
  | still | listed | cancelled | closed | claimed => simp
  | voted hk | decided hk =>
    simp only [List.mem_cons, List.not_mem_nil, or_false, reduceCtorEq]
    rintro rfl
    cases hk

theorem Placed.mono (h : Placed now x w) (hn : now ≤ later) : Placed later x w := by
  cases h with
  | absent => exact .absent
  | drafted hx hw => exact .drafted hx hw
  | polled hx hs hw => exact .polled hx (Int.le_trans hs hn) hw
  | settled hx hw => exact .settled hx hw
  | cancelled hw => exact .cancelled hw

/-- Nothing need have been said of an open proposal that is voted on. -/
theorem Placed.mem_polling {x : Proposal} (h : Placed now (some x) w) (hx : x.isClosed = false) :
    w ∈ (listing * polling).matches' := by
  cases h with
  | drafted _ hw => exact mul_nil hw (nil_mem_star _)
  | polled _ _ hw => exact hw
  | settled hc _ => cases hx.symm.trans hc

theorem Placed.mem_listing {x : Proposal} (h : Placed now (some x) w) (hx : x.isClosed = false)
    (hs : now < x.start) : w ∈ listing.matches' := by
  cases h with
  | drafted _ hw => exact hw
  | polled _ hs' _ => omega
  | settled hc _ => cases hx.symm.trans hc

/-- A turn is told in an order that may be. -/
theorem Placed.turn (h : Placed now x w) (ht : Turn now x k y) : Placed now y (w ++ k) := by
  cases ht with
  | still =>
    rw [List.append_nil]
    exact h
  | listed hx hs hy => exact .drafted hy (star_append (h.mem_listing hx hs) (mem_char _))
  | cancelled hx hs => exact .cancelled (mul_append (h.mem_listing hx hs) (mem_char _))
  | voted hk hx hs hy => exact .polled hy hs (polling_append hk (h.mem_polling hx))
  | @decided _ _ k hk hx hy =>
    have hvote := polling_append hk (h.mem_polling hx)
    have hclose := settling_append hvote
    rw [List.append_assoc] at hclose
    exact .settled hy hclose
  | closed hx hy => exact .settled hy (settling_append (h.mem_polling hx))
  | claimed hx =>
    cases h with
    | drafted ho | polled ho => cases ho.symm.trans hx
    | settled _ hw =>
      refine .settled hx (append_of_mul hw fun _ hb => append_of_mul hb fun _ hc => ?_)
      exact append_of_mul hc fun _ hd => star_append hd (mem_char _)

theorem Placed.mem_sinceCreation (h : Placed now x w) : w ∈ sinceCreation.matches' := by
  cases h with
  | absent => exact mul_nil (nil_mem_star _) (add_left (add_left nil_mem_one))
  | drafted _ hw => exact mul_nil hw (add_left (add_left nil_mem_one))
  | polled _ _ hw =>
    exact mul_mono hw fun b hb => add_right (mul_nil hb (add_left nil_mem_one))
  | settled _ hw =>
    exact mul_mono hw fun b hb => add_right (mul_mono hb fun _ hc => add_right hc)
  | cancelled hw => exact mul_mono hw fun b hb => add_left (add_right hb)

/-! ### Turns of a voter -/

theorem withdrawing_cast (hw : w ∈ withdrawing.matches') :
    w ++ [.voteCast] ∈ (withdrawing * casting).matches' :=
  mul_append hw (mul_nil (mem_char _) (nil_mem_star _))

theorem casting_cast (hw : w ∈ (withdrawing * casting).matches') :
    w ++ [.voteCast] ∈ (withdrawing * casting).matches' :=
  append_of_mul hw fun _ hb => append_of_mul hb fun _ hc => star_append hc (mem_char _)

theorem casting_withdraw (hw : w ∈ (withdrawing * casting).matches') :
    w ++ [.voteWithdrawn] ∈ withdrawing.matches' := by
  rw [matches'_mul, Language.mem_mul] at hw
  obtain ⟨rounds, hrounds, b, hb, rfl⟩ := hw
  rw [List.append_assoc]
  exact star_append hrounds (mul_append hb (mem_char _))

theorem casting_claim (hw : w ∈ (withdrawing * casting).matches') :
    w ++ [.fundsClaimed] ∈ (withdrawing * (casting * char EventKind.fundsClaimed)).matches' :=
  append_of_mul hw fun _ hb => mul_append hb (mem_char _)

theorem withdrawing_mem_ofVoter (hw : w ∈ withdrawing.matches') : w ∈ ofVoter.matches' :=
  mul_nil hw (add_left nil_mem_one)

theorem casting_mem_ofVoter (hw : w ∈ (withdrawing * casting).matches') : w ∈ ofVoter.matches' :=
  mul_mono hw fun _ hb => add_right (mul_nil hb (add_left nil_mem_one))

theorem claimed_mem_ofVoter
    (hw : w ∈ (withdrawing * (casting * char EventKind.fundsClaimed)).matches') :
    w ∈ ofVoter.matches' :=
  mul_mono hw fun _ hb => add_right (mul_mono hb fun _ hc => add_right hc)

end QuadraticVoting.Protocol
