import QuadraticVoting.Proofs.Admission
import QuadraticVoting.Proofs.Ballots

/-!
# Conditions in order

A check asks for some conditions, one after the other, and stops at the first that does not hold.
A `Condition` is what has to hold, with the fault that its failing is told as; `firstFault` is the
fault of the first that fails. `Asks` ties a check to a list of conditions: the check passes if and
only if all of them hold, and if not, it fails with `firstFault`. It goes with binds and guards, so
that the conditions of a check are read off its text.

`Assembly.voteConditions` and `Assembly.claimConditions` are the conditions of a vote and of a
claim. They tell apart no more than a caller can see: whether a proposal is closed, whether a weight
is one at all, whether its square is a balance.
-/

namespace QuadraticVoting

structure Condition where
  holds : Bool
  fault : Fault
deriving DecidableEq

/-- The fault of the first condition that does not hold. -/
def firstFault : List Condition → Option Fault
  | [] => none
  | c :: rest => if c.holds then firstFault rest else some c.fault

theorem firstFault_cons (c : Condition) (rest : List Condition) :
    firstFault (c :: rest) = if c.holds then firstFault rest else some c.fault := rfl

theorem firstFault_append (l m : List Condition) :
    firstFault (l ++ m) = (firstFault l).or (firstFault m) := by
  induction l with
  | nil => rfl
  | cons c rest ih =>
    rw [List.cons_append, firstFault_cons, firstFault_cons, ih]
    split <;> rfl

theorem firstFault_eq_none_iff {l : List Condition} :
    firstFault l = none ↔ ∀ c ∈ l, c.holds = true := by
  induction l with
  | nil => simp [firstFault]
  | cons c rest ih =>
    rw [firstFault_cons, List.forall_mem_cons, ← ih]
    split
    · next h => simp [h]
    · next h => simp [h]

/-- What stops at the first condition that does not hold, and else answers if it can be told,
answers if and only if all conditions hold and it can be told. -/
theorem exists_ok_iff [Host] {α : Type} {l : List Condition} {x : Except Fault α} {told : Bool}
    (hstops : ∀ f, firstFault l = some f → x = .error f.told)
    (hanswers : firstFault l = none →
      ∃ a, x = if told then .ok a else .error (.excess .integer)) :
    (∃ a, x = .ok a) ↔ firstFault l = none ∧ told = true := by
  constructor
  · rintro ⟨a, ha⟩
    cases hl : firstFault l with
    | some f => cases ha.symm.trans (hstops f hl)
    | none =>
      obtain ⟨b, hb⟩ := hanswers hl
      refine ⟨rfl, ?_⟩
      by_contra ht
      cases ha.symm.trans (hb.trans (if_neg ht))
  · rintro ⟨hl, ht⟩
    obtain ⟨a, ha⟩ := hanswers hl
    exact ⟨a, ha.trans (if_pos ht)⟩

/-- A check that passes if and only if all conditions hold, and else fails with the fault of the
first that does not. -/
structure Asks {α : Type} (x : Except Fault α) (l : List Condition) : Prop where
  passes : firstFault l = none → ∃ a, x = .ok a
  stops : ∀ {f : Fault}, firstFault l = some f → x = .error f

namespace Asks

variable {α β : Type} {l m : List Condition}

theorem passed (a : α) (hl : firstFault l = none) : Asks (.ok a) l where
  passes _ := ⟨a, rfl⟩
  stops h := by
    rw [hl] at h
    cases h

theorem failed {f : Fault} (hl : firstFault l = some f) : Asks (.error f : Except Fault α) l where
  passes h := by
    rw [hl] at h
    cases h
  stops h := by
    rw [hl] at h
    rw [Option.some.inj h]

theorem ok (a : α) : Asks (.ok a) [] := .passed a rfl

theorem test {b : Bool} {a : α} {f : Fault} :
    Asks (if b = true then .ok a else .error f) [⟨b, f⟩] := by
  cases b with
  | true => exact .passed a rfl
  | false => exact .failed rfl

theorem bind {x : Except Fault α} {k : α → Except Fault β} (hx : Asks x l)
    (hk : ∀ a, x = .ok a → Asks (k a) m) : Asks (x >>= k) (l ++ m) where
  passes h := by
    rw [firstFault_append, Option.or_eq_none_iff] at h
    obtain ⟨a, ha⟩ := hx.passes h.1
    obtain ⟨b, hb⟩ := (hk a ha).passes h.2
    exact ⟨b, bind_eq_ok_iff.2 ⟨a, ha, hb⟩⟩
  stops {f} h := by
    rw [firstFault_append] at h
    cases hl : firstFault l with
    | some g =>
      rw [hl] at h
      cases h
      rw [hx.stops hl]
      rfl
    | none =>
      rw [hl] at h
      obtain ⟨a, ha⟩ := hx.passes hl
      rw [ha]
      exact (hk a ha).stops h

theorem cons {c : Condition} {x : Except Fault α} {k : α → Except Fault β} (hx : Asks x [c])
    (hk : ∀ a, x = .ok a → Asks (k a) m) : Asks (x >>= k) (c :: m) := hx.bind hk

/-- A check that stops when something is wrong asks for one more condition, which is that it is
not. -/
theorem barred {wrong : Prop} [Decidable wrong] {holds : Bool} {f : Fault} {x : Except Fault α}
    (hw : holds = true ↔ ¬ wrong) (hx : Asks x l) :
    Asks (if wrong then .error f else x) (⟨holds, f⟩ :: l) := by
  by_cases h : wrong
  · rw [if_pos h, eq_false_of_ne_true (hw.not.2 (not_not.2 h))]
    exact .failed rfl
  · rw [if_neg h, hw.2 h]
    exact ⟨hx.passes, hx.stops⟩

/-- A guard asks for one more condition, which holds when its test does not. -/
theorem guard {b holds : Bool} {f : Fault} {k : α → Except Fault β} {y : Except Fault β}
    (hb : holds = !b) (hy : Asks y l) :
    Asks (if b = true then (throw f : Except Fault α) >>= k else y) (⟨holds, f⟩ :: l) :=
  barred (by rw [hb, Bool.not_eq_true', Bool.not_eq_true]) hy

theorem stops_discard {x : Except Fault α} {k : α → Except Fault β} (h : Asks (x >>= k) l)
    {f : Fault} (hf : firstFault l = some f) : (x >>= fun a => discard (k a)) = .error f := by
  have hx := h.stops hf
  cases x with
  | error g => exact congrArg Except.error (Except.error.inj hx)
  | ok a =>
    have hk : k a = .error f := hx
    show discard (k a) = .error f
    rw [hk]
    rfl

end Asks

/-! ### The single checks -/

/-- Whether a value can be a weight. -/
def Value.isWeight : Value → Bool
  | .int n => 0 ≤ n
  | .null | .bool _ | .real _ | .stamp _ | .text _ | .list _ | .table _ => false

theorem Origin.asks_signer (o : Origin) :
    Asks o.signer [⟨!o.isRoot && o.account.isGiven, .unsigned⟩] := by
  have h : o.signer =
      if (!o.isRoot && o.account.isGiven) = true then .ok o.account else .error .unsigned := by
    unfold signer
    cases o.isRoot <;> cases o.account.isGiven <;> rfl
  rw [h]
  exact .test

theorem Registry.asks_require (r : Registry) (who : Account) :
    Asks (r.require who) [⟨r.contains who, .notRegistered who⟩] := .test

theorem asks_weightOf (v : Value) : Asks (weightOf v) [⟨v.isWeight, .invalidWeight v⟩] := by
  cases v with
  | int n =>
    have h : weightOf (.int n) =
        if (decide (0 ≤ n)) = true then .ok n else .error (.invalidWeight (.int n)) := by
      simp only [weightOf, decide_eq_true_eq]
      split
      · rw [if_neg (by omega)]
      · rw [if_pos (by omega)]
    rw [h]
    exact .test
  | null | bool | real | stamp | text | list | table =>
    exact .failed rfl

theorem le_maxWeight_iff {n : Int} (h : 0 ≤ n) : n ≤ maxWeight ↔ n * n ≤ maxBalance := by
  constructor
  · intro hn
    have hsq : n * n ≤ maxWeight * maxWeight := Int.mul_le_mul hn hn h (by decide)
    exact Int.le_trans hsq maxWeight_sq_le
  · intro hn
    by_contra hlt
    have hsucc : maxWeight + 1 ≤ n := by omega
    have hsq : (maxWeight + 1) * (maxWeight + 1) ≤ n * n :=
      Int.mul_le_mul hsucc hsucc (by decide) h
    have hmax := maxBalance_lt_succ_maxWeight_sq
    omega

theorem asks_cost {n : Int} (h : 0 ≤ n) :
    Asks (cost n) [⟨n * n ≤ maxBalance, .weightTooLarge n⟩] := by
  have hcost : cost n =
      if (decide (n * n ≤ maxBalance)) = true then .ok (n * n) else .error (.weightTooLarge n) := by
    simp only [cost, decide_eq_true_eq, ← le_maxWeight_iff h]
    split
    · rw [if_neg (by omega)]
    · rw [if_pos (by omega)]
  rw [hcost]
  exact .test

/-- Whether a ballot differs from the one in its place; one of weight 0 differs from none only if
there is one. -/
def Ballot.changes (b : Ballot) : Option Ballot → Bool
  | none => b.weight ≠ 0
  | some old => old.aye ≠ b.aye || old.weight ≠ b.weight

/-- How a ballot that changes nothing is refused. -/
def Ballot.sameFault (b : Ballot) : Option Ballot → Fault
  | none => .nothingToWithdraw b.voter b.proposal
  | some _ => .sameVote b.voter b.proposal

namespace Assembly

theorem asks_requireChange (prior : Option Ballot) (b : Ballot) :
    Asks (requireChange prior b) [⟨b.changes prior, b.sameFault prior⟩] := by
  have h : requireChange prior b =
      if b.changes prior = true then .ok () else .error (b.sameFault prior) := by
    cases prior with
    | none =>
      simp only [requireChange, Ballot.changes, Ballot.sameFault]
      by_cases hw : b.weight = 0 <;> simp [hw]
    | some old =>
      simp only [requireChange, Ballot.changes, Ballot.sameFault]
      by_cases ha : old.aye = b.aye <;> by_cases hw : old.weight = b.weight <;> simp [ha, hw]
  rw [h]
  exact .test

theorem asks_requireProposal (s : Assembly) (p : Int) :
    Asks (s.requireProposal p) [⟨(s.proposal? p).isSome, .proposalNotFound p⟩] := by
  unfold requireProposal
  cases s.proposal? p with
  | none => exact .failed rfl
  | some x => exact .passed x rfl

/-- What a proposal must be for a vote at a block height. -/
def activeConditions (x : Proposal) (p now : Int) : List Condition := [
  ⟨!x.isClosed, .alreadyClosed p⟩,
  ⟨x.start ≤ now, .notStarted p x.start⟩,
  ⟨now ≤ x.stop, .alreadyEnded p x.stop⟩]

theorem asks_requireActive {s : Assembly} {p now : Int} {x : Proposal}
    (hx : s.proposal? p = some x) : Asks (s.requireActive p now) (activeConditions x p now) := by
  unfold requireActive
  rw [requireProposal_eq_ok_iff.2 hx]
  dsimp only [bind, Except.bind]
  unfold Proposal.stageAt activeConditions
  cases x.isClosed with
  | true => exact .failed rfl
  | false =>
    rw [if_neg Bool.false_ne_true]
    by_cases hs : now < x.start
    · rw [if_pos hs]
      exact .failed (by simp [firstFault, Int.not_le.2 hs])
    · rw [if_neg hs]
      have hs : x.start ≤ now := Int.not_lt.1 hs
      by_cases he : now ≤ x.stop
      · rw [if_pos he]
        exact .passed x (by simp [firstFault, hs, he])
      · rw [if_neg he]
        exact .failed (by simp [firstFault, hs, he])

/-! ### Votes and claims -/

/-- What a vote asks for once there is a proposal and a weight. -/
def ballotConditions (x : Proposal) (b : Ballot) (prior : Option Ballot) (spendable now : Int) :
    List Condition :=
  activeConditions x b.proposal now ++ [
    ⟨x.permits b.voter, .notAllowed b.voter b.proposal⟩,
    ⟨b.changes prior, b.sameFault prior⟩,
    ⟨b.locked ≤ maxBalance, .weightTooLarge b.weight⟩,
    ⟨b.locked - priorCost prior ≤ spendable || b.locked ≤ priorCost prior,
      .cannotAfford b.voter spendable (b.locked - priorCost prior) b.weight b.proposal⟩]

/-- What a vote asks for, from first to last. -/
def voteConditions (s : Assembly) (spendable : Account → Int) (o : Origin) (p : Int) (aye : Bool)
    (weight : Value) : List Condition := [
  ⟨!o.isRoot && o.account.isGiven, .unsigned⟩,
  ⟨weight.isWeight, .invalidWeight weight⟩,
  ⟨s.registry.contains o.account, .notRegistered o.account⟩,
  ⟨(s.proposal? p).isSome, .proposalNotFound p⟩] ++
  match s.proposal? p, weight with
  | some x, .int n => ballotConditions x ⟨p, o.account, aye, n⟩ (s.ballot? p o.account)
    (spendable o.account) s.now
  | _, _ => []

/-- What a claim asks for, from first to last. -/
def claimConditions (s : Assembly) (o : Origin) (p : Int) : List Condition := [
  ⟨!o.isRoot && o.account.isGiven, .unsigned⟩,
  ⟨s.registry.contains o.account, .notRegistered o.account⟩,
  ⟨(s.proposal? p).isSome, .proposalNotFound p⟩,
  ⟨(s.proposal? p).any Proposal.isClosed, .notClosed p⟩,
  ⟨s.hasVoted p o.account, .nothingToClaim o.account p⟩]

theorem affordable_eq (new prior spendable : Int) :
    (decide (new - prior ≤ spendable) || decide (new ≤ prior)) =
      !(decide (new - prior > 0) && decide (spendable < new - prior)) := by
  rw [Bool.eq_iff_iff]
  simp only [Bool.or_eq_true, decide_eq_true_eq, Bool.not_eq_true', Bool.and_eq_false_iff,
    decide_eq_false_iff_not]
  omega

variable {s : Assembly} {p : Int}

/-- A vote asks for its conditions, when the tally can give up the ballot that is replaced. -/
theorem asks_vote {spendable : Account → Int} {o : Origin} {aye : Bool} {weight : Value}
    (ht : ∀ x, s.proposal? p = some x → ∃ t, x.tally.withdraw (s.ballot? p o.account) = .ok t) :
    Asks (o.signer >>= fun voter => s.planVote spendable p voter aye weight s.now)
      (s.voteConditions spendable o p aye weight) := by
  refine .cons (Origin.asks_signer o) fun voter ho => ?_
  obtain rfl := (Origin.signer_eq_ok_iff.1 ho).2.1
  unfold planVote
  refine .cons (asks_weightOf weight) fun n hn => ?_
  obtain ⟨rfl, h0⟩ := weightOf_eq_ok_iff.1 hn
  refine .cons (Registry.asks_require ..) fun _ _ => ?_
  cases hx : s.proposal? p with
  | none =>
    have hfail : s.requireActive p s.now = .error (.proposalNotFound p) := by
      rw [requireActive, requireProposal, hx]
      rfl
    rw [hfail]
    exact .failed rfl
  | some x =>
    show Asks _ (⟨true, _⟩ :: (activeConditions x p s.now ++ _))
    have hactive : Asks (s.requireActive p s.now)
        (⟨true, .proposalNotFound p⟩ :: activeConditions x p s.now) :=
      ⟨(asks_requireActive hx).passes, (asks_requireActive hx).stops⟩
    refine hactive.bind fun y hy => ?_
    obtain rfl : x = y := Option.some.inj (hx.symm.trans (requireActive_eq_ok_iff.1 hy).1)
    refine .guard (Bool.not_not _).symm ?_
    refine .cons (asks_requireChange ..) fun _ _ => .cons (asks_cost h0) fun new hnew => ?_
    obtain rfl : new = n * n := (cost_eq_ok_iff.1 hnew).2
    refine .guard (affordable_eq ..) ?_
    obtain ⟨t, ht⟩ := ht x hx
    rw [swapTally_eq_ok_iff.2 ⟨t, ht, rfl⟩]
    exact .ok _

theorem asks_claim (o : Origin) : Asks (o.signer >>= fun voter => Chamber.checkClaim s voter p)
    (s.claimConditions o p) := by
  refine .cons (Origin.asks_signer o) fun voter ho => ?_
  obtain rfl := (Origin.signer_eq_ok_iff.1 ho).2.1
  unfold Chamber.checkClaim
  refine .cons (Registry.asks_require ..) fun _ _ => .cons (asks_requireProposal ..) fun x hx => ?_
  have hclosed : (s.proposal? p).any Proposal.isClosed = !!x.isClosed := by
    rw [requireProposal_eq_ok_iff.1 hx, Option.any_some, Bool.not_not]
  refine .guard hclosed ?_
  unfold hasVoted
  cases s.ballot? p o.account with
  | none => exact .failed rfl
  | some b => exact .passed b rfl

end Assembly

end QuadraticVoting
