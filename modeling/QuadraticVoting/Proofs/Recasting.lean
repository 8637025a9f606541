import QuadraticVoting.Proofs.Stranding
import QuadraticVoting.Proofs.Strokes

/-!
# Votes taken back and cast again

A vote that changes a live one moves only the difference, of the tally and of the funds. On a public
proposal that is active, this comes to the same as taking the old vote back and casting the new one
(`Chamber.recast`): the funds suffice for the one if they do for the other
(`Assembly.firstFault_costConditions_recast`), and the strokes add up to the same (`Struck.level`).
A vote that is cast and taken back leaves nothing behind, for the same reason.

Taking a vote back tells of its proposal before the new one is looked at. Only on an id that is too
large to be written (`Assembly.Numbered.isWritable`) can the two ways be refused differently.
-/

namespace QuadraticVoting

namespace Assembly

/-! ### What a vote on an active proposal asks for -/

/-- What does not depend on the ballot. -/
def entryConditions (s : Assembly) (o : Origin) (p : Int) (x : Proposal) : List Condition := [
  ⟨!o.isRoot && o.account.isGiven, .unsigned⟩,
  ⟨s.registry.contains o.account, .notRegistered o.account⟩,
  ⟨x.permits o.account, .notAllowed o.account p⟩]

/-- What depends on the ballot, on the one that it replaces and on the funds. -/
def costConditions (b : Ballot) (prior : Option Ballot) (spendable : Int) : List Condition := [
  ⟨b.changes prior, b.sameFault prior⟩,
  ⟨b.locked ≤ maxBalance, .weightTooLarge b.weight⟩,
  ⟨b.locked - priorCost prior ≤ spendable || b.locked ≤ priorCost prior,
    .cannotAfford b.voter spendable (b.locked - priorCost prior) b.weight b.proposal⟩]

variable {s : Assembly} {spendable : Account → Int} {o : Origin} {p n : Int} {x : Proposal}

theorem firstFault_voteConditions (hx : s.proposal? p = some x) (ha : x.stageAt s.now = .active)
    (hn : 0 ≤ n) (aye : Bool) : firstFault (s.voteConditions spendable o p aye (.int n)) =
      (firstFault (s.entryConditions o p x)).or
        (firstFault (costConditions ⟨p, o.account, aye, n⟩ (s.ballot? p o.account)
          (spendable o.account))) := by
  obtain ⟨hopen, hstart, hstop⟩ := Proposal.stageAt_eq_active_iff.1 ha
  rw [← firstFault_append]
  unfold voteConditions entryConditions costConditions ballotConditions activeConditions
  rw [hx]
  simp only [List.cons_append, List.nil_append, firstFault_cons, Value.isWeight, hn, hopen, hstart,
    hstop, Option.isSome_some, Bool.not_false, decide_true, if_true]

theorem firstFault_costConditions_zero {b old : Ballot} (hb : b.weight = 0)
    (hold : 0 < old.weight) (spendable : Int) :
    firstFault (costConditions b (some old) spendable) = none := by
  have hlocked : b.locked = 0 := by rw [Ballot.locked, hb]; rfl
  have hne : old.weight ≠ b.weight := by omega
  have hnonneg := old.locked_nonneg
  have hmax : (0 : Int) ≤ maxBalance := by decide
  simp [costConditions, firstFault, Ballot.changes, hne, hlocked, hmax, priorCost, hnonneg]

/-- A ballot that changes something can be refused for its weight, and then for what it costs beyond
what the one in its place gives back. -/
theorem firstFault_costConditions {b : Ballot} {prior : Option Ballot} {spendable : Int}
    (hc : b.changes prior = true) (hs : 0 ≤ spendable) :
    firstFault (costConditions b prior spendable) =
      if b.locked ≤ maxBalance then
        if b.locked ≤ spendable + priorCost prior then none
        else some (.cannotAfford b.voter spendable (b.locked - priorCost prior) b.weight b.proposal)
      else some (.weightTooLarge b.weight) := by
  have hafford : (decide (b.locked - priorCost prior ≤ spendable) ||
      decide (b.locked ≤ priorCost prior)) = decide (b.locked ≤ spendable + priorCost prior) := by
    rw [Bool.eq_iff_iff]
    simp only [Bool.or_eq_true, decide_eq_true_eq]
    omega
  unfold costConditions
  rw [hafford]
  simp only [firstFault, hc, if_true, decide_eq_true_eq]

variable [Host]

/-- That a vote costs too much is told as such when it names an id that can be written. -/
theorem kind_told_cannotAfford {v : Account} {available required : Int}
    (hp : Value.isWritable p = true) (hn : 0 ≤ n) (hmax : n * n ≤ maxBalance)
    (h0 : 0 ≤ available) (hlt : available < required) (hle : required ≤ n * n) :
    (Fault.cannotAfford v available required n p).told.kind = .insufficientFunds := by
  have hweight := (isWritable_weight hn ((le_maxWeight_iff hn).2 hmax)).1
  have havailable : Value.isWritable available = true := Value.isWritable_of_le h0 (by omega)
  have hrequired : Value.isWritable required = true :=
    Value.isWritable_of_le (by omega) (by omega)
  simp [Fault.told, Fault.named, Value.excess?, Value.excessAt, hp, hweight,
    havailable, hrequired, Fault.kind]

/-- A ballot is refused in the place of another one as it is after that has been given back. -/
theorem firstFault_costConditions_recast {b old : Ballot} {spendable : Int} (hn : 0 < b.weight)
    (hc : b.changes (some old) = true) (hs : 0 ≤ spendable) :
    let first := firstFault (costConditions b (some old) spendable)
    let second := firstFault (costConditions b none (spendable + old.locked))
    (first = none ∧ second = none) ∨ ∃ f g, first = some f ∧ second = some g ∧
      (Value.isWritable b.proposal = true → g.told.kind = f.told.kind) := by
  intro first second
  have hold := old.locked_nonneg
  have hcasts : b.changes none = true := decide_eq_true (Int.ne_of_gt hn)
  have hfirst := firstFault_costConditions hc hs
  have hsecond := firstFault_costConditions hcasts (Int.add_nonneg hs hold)
  have hprior : priorCost (some old) = old.locked := rfl
  have hzero : priorCost none = 0 := rfl
  by_cases hmax : b.locked ≤ maxBalance
  · rw [if_pos hmax] at hfirst hsecond
    by_cases hafford : b.locked ≤ spendable + old.locked
    · rw [if_pos (by omega)] at hfirst hsecond
      exact .inl ⟨hfirst, hsecond⟩
    · rw [if_neg (by omega)] at hfirst hsecond
      refine .inr ⟨_, _, hfirst, hsecond, fun hp => ?_⟩
      have hlocked : b.locked = b.weight * b.weight := rfl
      rw [kind_told_cannotAfford hp (Int.le_of_lt hn) hmax hs (by omega) (by omega),
        kind_told_cannotAfford hp (Int.le_of_lt hn) hmax (by omega) (by omega) (by omega)]
  · rw [if_neg hmax] at hfirst hsecond
    exact .inr ⟨_, _, hfirst, hsecond, fun _ => rfl⟩

end Assembly

namespace Stroke

/-- A stroke that writes nothing. -/
def rest (p : Int) (v : Account) (ballot : Option Ballot) : Stroke where
  proposal := p
  voter := v
  ballot := ballot
  aye := 0
  total := 0
  closes := false
  delta := 0
  events := []

theorem count_rest (p : Int) (v : Account) (ballot : Option Ballot) (x : Proposal) :
    (rest p v ballot).count x = x := by
  simp [count, rest]

end Stroke

namespace Ballot

variable {b z old : Ballot} {x : Proposal}

theorem count_voteStroke_public (hk : x.kind = .publicVote) (prior : Option Ballot) (told : Bool) :
    (b.voteStroke prior x told).count x = { x with tally := b.recount prior x.tally } := by
  have hcloses : (b.voteStroke prior x told).closes = false := by
    simp [voteStroke, outcome, hk]
  unfold Stroke.count
  rw [hcloses]
  rfl

theorem recount_recount (hz : z.weight = 0) (t : Tally) :
    b.recount none (z.recount (some old) t) = b.recount (some old) t := by
  have hlocked : z.locked = 0 := by rw [locked, hz]; rfl
  have hpower : z.ayePower = 0 := by rw [ayePower, hlocked, ite_self]
  simp only [recount, hlocked, hpower, priorAye, Assembly.priorCost, Tally.mk.injEq]
  omega

theorem recount_back (hz : z.weight = 0) (t : Tally) :
    z.recount (some b) (b.recount none t) = t := by
  have hlocked : z.locked = 0 := by rw [locked, hz]; rfl
  have hpower : z.ayePower = 0 := by rw [ayePower, hlocked, ite_self]
  obtain ⟨aye, total⟩ := t
  simp only [recount, hlocked, hpower, priorAye, Assembly.priorCost, Tally.mk.injEq]
  omega

end Ballot

namespace Chamber

/-! ### Chambers that hold the same -/

/-- Chambers that hold the same, in whatever order it came about and whatever the journals tell. -/
structure Level (c c' : Chamber Ledger) : Prop where
  limits_eq : c'.assembly.limits = c.assembly.limits
  clock_eq : c'.assembly.clock = c.assembly.clock
  registry_eq : c'.assembly.registry = c.assembly.registry
  nextId_eq : c'.assembly.nextId = c.assembly.nextId
  proposal_eq : ∀ p, c'.assembly.proposal? p = c.assembly.proposal? p
  ballot_eq : ∀ p v, c'.assembly.ballot? p v = c.assembly.ballot? p v
  balances_eq : c'.funds.balances = c.funds.balances
  issuance_eq : c'.funds.issuance = c.funds.issuance
  frozen_eq : ∀ a, c'.funds.frozenOf a = c.funds.frozenOf a

variable {c d e f : Chamber Ledger} {k k₁ k₂ : Stroke} {gone : List Ballot} {o : Origin} {p n : Int}
  {x : Proposal} {b old : Ballot} {prior : Option Ballot} {aye aye' : Value}

theorem Struck.minted_eq (h : c.Struck d k) :
    d.funds.balances = c.funds.balances ∧ d.funds.issuance = c.funds.issuance := by
  have hshift := h.funds_eq
  unfold Ledger.shift at hshift
  rw [hshift]
  split
  · exact ⟨rfl, rfl⟩
  · split <;> exact ⟨rfl, rfl⟩

theorem Struck.rest (c : Chamber Ledger) (p : Int) (v : Account) :
    c.Struck c (.rest p v (c.assembly.ballot? p v)) where
  assembly_eq := by
    show _ = { c.assembly with journal := c.assembly.journal ++ [] }
    rw [List.append_nil]
  proposal_eq q := by
    rw [funext (Stroke.count_rest p v _), Option.map_id', ite_self]
  ballot_eq q w := by
    split
    · next h =>
      obtain ⟨rfl, rfl⟩ := h
      rfl
    · rfl
  funds_eq := rfl

/-- Two strokes of one voter on one proposal come to the same as a third if they add up to it. -/
theorem Struck.level (h : c.Struck d k) (h₁ : c.Struck e k₁) (h₂ : e.Struck f k₂)
    (hp₁ : k₁.proposal = k.proposal) (hp₂ : k₂.proposal = k.proposal) (hv₁ : k₁.voter = k.voter)
    (hv₂ : k₂.voter = k.voter) (hballot : k₂.ballot = k.ballot)
    (hcount : ∀ x, c.assembly.proposal? k.proposal = some x → k₂.count (k₁.count x) = k.count x)
    (hdelta : k₁.delta + k₂.delta = k.delta) : d.Level f := by
  have hf := h₁.assembly_eq ▸ h₂.assembly_eq
  have hd := h.assembly_eq
  refine {
    limits_eq := by rw [hf, hd], clock_eq := by rw [hf, hd], registry_eq := by rw [hf, hd]
    nextId_eq := by rw [hf, hd], proposal_eq := fun q => ?_, ballot_eq := fun q v => ?_
    balances_eq := h₂.minted_eq.1.trans (h₁.minted_eq.1.trans h.minted_eq.1.symm)
    issuance_eq := h₂.minted_eq.2.trans (h₁.minted_eq.2.trans h.minted_eq.2.symm)
    frozen_eq := fun a => ?_ }
  · rw [h₂.proposal_eq, h₁.proposal_eq, h.proposal_eq, hp₁, hp₂]
    split
    · next hq =>
      subst hq
      cases hx : c.assembly.proposal? k.proposal with
      | none => rfl
      | some x => exact congrArg some (hcount x hx)
    · rfl
  · rw [h₂.ballot_eq, h₁.ballot_eq, h.ballot_eq, hp₁, hp₂, hv₁, hv₂, hballot]
    split <;> rfl
  · rw [h₂.frozenOf_eq, h₁.frozenOf_eq, h.frozenOf_eq, hv₁, hv₂]
    split <;> omega

/-! ### Votes on an active public proposal -/

/-- A vote on an active proposal meets its conditions and makes its stroke, or is told of the first
one that it does not meet. -/
theorem perform_vote_active [Host] (hb : c.Backed) (h : c.assembly.Counted c.funds.issuance gone)
    (hx : c.assembly.proposal? p = some x) (ha : x.stageAt c.assembly.now = .active)
    (hn : 0 ≤ n) (o : Origin) (aye : Value) :
    let r := c.perform (.vote o p aye (.int n))
    let b : Ballot := ⟨p, o.account, aye.truthy, n⟩
    let prior := c.assembly.ballot? p o.account
    let first := (firstFault (c.assembly.entryConditions o p x)).or
      (firstFault (Assembly.costConditions b prior (c.funds.spendable o.account)))
    (∀ f, first = some f → r.result = .error f.told ∧ r.state = c) ∧
      (first = none →
        r.result = (if Value.isWritable p then .ok (.outcome (b.outcome prior x))
          else .error (.excess .integer)) ∧
        c.Struck r.state (b.voteStroke prior x (Value.isWritable p))) := by
  intro r b prior first
  have hfirst : firstFault (c.assembly.voteConditions c.funds.spendable o p aye.truthy (.int n)) =
      first := Assembly.firstFault_voteConditions hx ha hn aye.truthy
  obtain ⟨hstops, hstrikes⟩ := perform_vote_struck hb h o p aye (.int n)
  rw [hfirst] at hstops hstrikes
  refine ⟨hstops, fun hnone => ?_⟩
  obtain ⟨m, y, hm, hy, hr, hs⟩ := hstrikes hnone
  cases hm
  cases hx.symm.trans hy
  exact ⟨hr, hs⟩

theorem Struck.next {told : Bool} (hs : c.Struck d (b.voteStroke prior x told))
    (hx : c.assembly.proposal? b.proposal = some x) (hk : x.kind = .publicVote) :
    d.assembly.proposal? b.proposal = some { x with tally := b.recount prior x.tally } ∧
      d.assembly.ballot? b.proposal b.voter = b.live ∧
      d.funds.spendable b.voter =
        c.funds.spendable b.voter + Assembly.priorCost prior - b.locked := by
  refine ⟨?_, (hs.ballot_eq _ _).trans (if_pos ⟨rfl, rfl⟩), ?_⟩
  · refine (hs.proposal_eq b.proposal).trans ((if_pos rfl).trans ?_)
    rw [hx, Option.map_some, Ballot.count_voteStroke_public hk]
  · have hbalance : d.funds.balanceOf b.voter = c.funds.balanceOf b.voter :=
      congrArg (fun m => (OrdMap.get? m b.voter).getD 0) hs.minted_eq.1
    have hfrozen := hs.frozenOf_eq b.voter
    have hdelta : (b.voteStroke prior x told).delta = b.locked - Assembly.priorCost prior := rfl
    rw [if_pos (show b.voter = (b.voteStroke prior x told).voter from rfl), hdelta] at hfrozen
    unfold Ledger.spendable
    omega

/-! ### Taking back and casting again -/

section AnyHost

variable [Host]

/-- A vote of weight 0, which takes the one in place back, and then another vote. -/
def recast (c : Chamber Ledger) (o : Origin) (p : Int) (aye' aye : Value) (n : Int) :
    Reply (Chamber Ledger) Answer :=
  (c.perform (.vote o p aye' (.int 0))).andThen fun d _ => d.perform (.vote o p aye (.int n))

theorem recast_of_error {f : Fault}
    (hf : (c.perform (.vote o p aye' (.int 0))).result = .error f) (aye : Value) (n : Int) :
    (c.recast o p aye' aye n).result = .error f :=
  congrArg Reply.result (Reply.andThen_of_error hf _)

theorem recast_of_ok {a : Answer} (ha : (c.perform (.vote o p aye' (.int 0))).result = .ok a)
    (aye : Value) (n : Int) :
    let r := (c.perform (.vote o p aye' (.int 0))).state.perform (.vote o p aye (.int n))
    (c.recast o p aye' aye n).result = r.result ∧ (c.recast o p aye' aye n).state = r.state := by
  intro r
  unfold recast
  rw [Reply.andThen_of_ok ha]
  exact ⟨rfl, rfl⟩

theorem perform_vote_next {m : Int} (hb : c.Backed)
    (h : c.assembly.Counted c.funds.issuance gone) (hx : c.assembly.proposal? p = some x)
    (hk : x.kind = .publicVote) (ha : x.stageAt c.assembly.now = .active)
    (he : firstFault (c.assembly.entryConditions o p x) = none) (hn : 0 ≤ n) (aye : Value) :
    let r₁ := c.perform (.vote o p aye' (.int m))
    let b₁ : Ballot := ⟨p, o.account, aye'.truthy, m⟩
    let r₂ := r₁.state.perform (.vote o p aye (.int n))
    let b₂ : Ballot := ⟨p, o.account, aye.truthy, n⟩
    ∀ told, c.Struck r₁.state (b₁.voteStroke prior x told) →
      let y := { x with tally := b₁.recount prior x.tally }
      let first := firstFault (Assembly.costConditions b₂ b₁.live
        (c.funds.spendable o.account + Assembly.priorCost prior - b₁.locked))
      (∀ f, first = some f → r₂.result = .error f.told) ∧
        (first = none →
          r₂.result = (if Value.isWritable p then .ok (.outcome (b₂.outcome b₁.live y))
            else .error (.excess .integer)) ∧
          r₁.state.Struck r₂.state (b₂.voteStroke b₁.live y (Value.isWritable p))) := by
  intro r₁ b₁ r₂ b₂ told hs y first
  obtain ⟨hy, hlive, hspend⟩ := hs.next hx hk
  have hb₁ : r₁.state.Backed :=
    ledgerStep_backed hb (s := .step (.call (.vote o p aye' (.int m)))) rfl
  have hay : y.stageAt r₁.state.assembly.now = .active := hs.now_eq.symm ▸ ha
  have hentry : r₁.state.assembly.entryConditions o p y = c.assembly.entryConditions o p x := by
    unfold Assembly.entryConditions
    rw [hs.registry_eq]
    rfl
  have hvote := perform_vote_active hb₁ (perform_counted hb h _) hy hay hn o aye
  dsimp only at hvote
  rw [hentry, he, Option.none_or, hlive, hspend] at hvote
  exact ⟨fun f hf => (hvote.1 f hf).1, hvote.2⟩

end AnyHost

/-- Taking a ballot back and casting another one comes to the same as replacing it. -/
theorem Struck.level_recast {z : Ballot} {t₀ t₁ t₂ : Bool} (hk : x.kind = .publicVote)
    (hx : c.assembly.proposal? b.proposal = some x) (hp : z.proposal = b.proposal)
    (hv : z.voter = b.voter) (hz : z.weight = 0) (h : c.Struck d (b.voteStroke (some old) x t₀))
    (h₁ : c.Struck e (z.voteStroke (some old) x t₁))
    (h₂ : e.Struck f (b.voteStroke none { x with tally := z.recount (some old) x.tally } t₂)) :
    d.Level f := by
  have hlocked : z.locked = 0 := by rw [Ballot.locked, hz]; rfl
  refine h.level h₁ h₂ hp rfl hv rfl rfl (fun y hy => ?_) ?_
  · cases hx.symm.trans hy
    rw [Ballot.count_voteStroke_public hk, Ballot.count_voteStroke_public hk,
      Ballot.count_voteStroke_public (x := { x with tally := z.recount (some old) x.tally }) hk]
    exact congrArg (fun t => { x with tally := t }) (Ballot.recount_recount hz x.tally)
  · simp only [Ballot.voteStroke, hlocked, Assembly.priorCost]
    omega

theorem Struck.level_back {z : Ballot} {t₁ t₂ : Bool} (hk : x.kind = .publicVote)
    (hx : c.assembly.proposal? b.proposal = some x)
    (hnone : c.assembly.ballot? b.proposal b.voter = none) (hp : z.proposal = b.proposal)
    (hv : z.voter = b.voter) (hz : z.weight = 0) (h₁ : c.Struck e (b.voteStroke none x t₁))
    (h₂ : e.Struck f (z.voteStroke (some b) { x with tally := b.recount none x.tally } t₂)) :
    c.Level f := by
  have hlocked : z.locked = 0 := by rw [Ballot.locked, hz]; rfl
  have hlive : z.live = none := if_neg (by omega)
  refine (Struck.rest c b.proposal b.voter).level h₁ h₂ rfl hp rfl hv (hlive.trans hnone.symm)
    (fun y hy => ?_) ?_
  · cases hx.symm.trans hy
    rw [Stroke.count_rest, Ballot.count_voteStroke_public hk,
      Ballot.count_voteStroke_public (x := { x with tally := b.recount none x.tally }) hk]
    exact congrArg (fun t => { x with tally := t }) (Ballot.recount_back hz x.tally)
  · simp only [Ballot.voteStroke, Stroke.rest, hlocked, Assembly.priorCost]
    omega

/-- A vote in the place of a live one goes well if taking that back and casting the other does, and
leaves the same. If not, both fail, and in the same way on an id that can be written. -/
theorem perform_recast [Host] (hb : c.Backed) (h : c.assembly.Counted c.funds.issuance gone)
    (hx : c.assembly.proposal? p = some x) (hk : x.kind = .publicVote)
    (ha : x.stageAt c.assembly.now = .active) (hn : 0 < n)
    (hlive : c.assembly.ballot? p o.account = some old)
    (hne : old.aye ≠ aye.truthy ∨ old.weight ≠ n) (aye' : Value) :
    let once := c.perform (.vote o p aye (.int n))
    let twice := c.recast o p aye' aye n
    (∃ a a', once.result = .ok a ∧ twice.result = .ok a' ∧ once.state.Level twice.state) ∨
      ∃ f g, once.result = .error f ∧ twice.result = .error g ∧
        (Value.isWritable p = true → g.kind = f.kind) := by
  intro once twice
  let b : Ballot := ⟨p, o.account, aye.truthy, n⟩
  let z : Ballot := ⟨p, o.account, aye'.truthy, 0⟩
  obtain ⟨hstop, hdone⟩ := perform_vote_active hb h hx ha (Int.le_of_lt hn) o aye
  obtain ⟨hstop₁, hdone₁⟩ := perform_vote_active hb h hx ha (Int.le_refl 0) o aye'
  rw [hlive] at hstop hdone hstop₁ hdone₁
  rw [Assembly.firstFault_costConditions_zero rfl (hb.regular.orderly.ballots hlive).weight_pos]
    at hstop₁ hdone₁
  cases he : firstFault (c.assembly.entryConditions o p x) with
  | some f =>
    -- The voter may not vote at all: both ways stop at their first call.
    rw [he] at hstop hstop₁
    have htwice : twice.result = .error f.told := recast_of_error (hstop₁ f rfl).1 aye n
    exact .inr ⟨_, _, (hstop f rfl).1, htwice, fun _ => rfl⟩
  | none =>
    rw [he, Option.none_or] at hstop hdone hdone₁
    obtain ⟨hr₁, hs₁⟩ := hdone₁ rfl
    cases hw : Value.isWritable p with
    | false =>
      rw [hw] at hdone hr₁
      have htwice : twice.result = .error (.excess .integer) := recast_of_error hr₁ aye n
      cases hf : firstFault
          (Assembly.costConditions b (some old) (c.funds.spendable o.account)) with
      | some f => exact .inr ⟨_, _, (hstop f hf).1, htwice, nofun⟩
      | none => exact .inr ⟨_, _, (hdone hf).1, htwice, nofun⟩
    | true =>
      rw [hw] at hdone hr₁ hs₁
      obtain ⟨htwice, hstate⟩ := recast_of_ok hr₁ aye n
      obtain ⟨hstop₂, hdone₂⟩ := perform_vote_next hb h hx hk ha he (Int.le_of_lt hn) aye
        true hs₁
      have hspend : c.funds.spendable o.account + old.locked - z.locked =
          c.funds.spendable o.account + old.locked := Int.sub_zero _
      have hchanges : b.changes (some old) = true := by
        simpa only [Ballot.changes, Bool.or_eq_true, decide_eq_true_eq] using hne
      simp only [Assembly.priorCost, hw] at hstop₂ hdone₂
      rw [hspend] at hstop₂ hdone₂
      rcases Assembly.firstFault_costConditions_recast hn hchanges
        (hb.regular.sound.spendable_nonneg o.account) with ⟨hf, hg⟩ | ⟨f, g, hf, hg, hkind⟩
      · obtain ⟨hr, hs⟩ := hdone hf
        obtain ⟨hr₂, hs₂⟩ := hdone₂ hg
        refine .inl ⟨_, _, hr, htwice.trans hr₂, ?_⟩
        rw [hstate]
        exact Struck.level_recast (b := b) (z := z) hk hx rfl rfl rfl hs hs₁ hs₂
      · exact .inr ⟨_, _, (hstop f hf).1, htwice.trans (hstop₂ g hg), fun _ => hkind hw⟩

/-- A vote that is cast where there was none can be taken back, and that leaves everything as it
was. -/
theorem perform_back [Host] (hb : c.Backed) (h : c.assembly.Counted c.funds.issuance gone)
    (hx : c.assembly.proposal? p = some x) (hk : x.kind = .publicVote)
    (ha : x.stageAt c.assembly.now = .active) (hn : 0 < n)
    (hnone : c.assembly.ballot? p o.account = none) {a : Answer}
    (hcast : (c.perform (.vote o p aye (.int n))).result = .ok a) (aye' : Value) :
    let r := (c.perform (.vote o p aye (.int n))).state.perform (.vote o p aye' (.int 0))
    (∃ a', r.result = .ok a') ∧ c.Level r.state := by
  intro r
  let b : Ballot := ⟨p, o.account, aye.truthy, n⟩
  obtain ⟨hstop, hdone⟩ := perform_vote_active hb h hx ha (Int.le_of_lt hn) o aye
  cases hf : (firstFault (c.assembly.entryConditions o p x)).or
      (firstFault (Assembly.costConditions b (c.assembly.ballot? p o.account)
        (c.funds.spendable o.account))) with
  | some f => cases hcast.symm.trans (hstop f hf).1
  | none =>
    obtain ⟨hr₁, hs₁⟩ := hdone hf
    have he := (Option.or_eq_none_iff.1 hf).1
    obtain ⟨-, hdone₂⟩ := perform_vote_next hb h hx hk ha he (Int.le_refl 0) aye' _ hs₁
    have hlive : b.live = some b := if_pos hn
    rw [hlive, hnone] at hdone₂
    obtain ⟨hr₂, hs₂⟩ := hdone₂ (Assembly.firstFault_costConditions_zero rfl hn _)
    have hw : Value.isWritable p = true := by
      by_contra hw
      cases hcast.symm.trans (hr₁.trans (if_neg hw))
    rw [hnone] at hs₁
    have hback := Struck.level_back (b := b) (z := ⟨p, o.account, aye'.truthy, 0⟩) hk hx hnone rfl
      rfl rfl hs₁ hs₂
    exact ⟨⟨_, hr₂.trans (if_pos hw)⟩, hback⟩

/-- After a run with any calls, mints and locks, but without unlocks on the ledger itself, and on an
active public proposal. A vote in the place of a live one goes well if and only if taking that back,
for either side, and casting the other does, and then both leave the same tallies, ballots, balances
and frozen amounts. If they fail, they fail in the same way on an id that can be written, as the
first `Value.writtenBound` of them are. A vote that is cast where there was none and is taken back
leaves everything as it was. -/
theorem ledgerRun_recast [Host] (limits : Limits) (clock : Clock) (symbol : Text)
    (opening : List (Account × Int)) (steps : List LedgerStep)
    (hu : ∀ s ∈ steps, s.isUnlock = false) :
    let c := (Chamber.empty limits clock (Ledger.create symbol opening).state).ledgerRun steps
    (c.assembly.nextId ≤ Value.writtenBound →
        ∀ p x, c.assembly.proposal? p = some x → Value.isWritable p = true) ∧
      ∀ p x, c.assembly.proposal? p = some x → x.kind = .publicVote →
        x.stageAt c.assembly.now = .active → ∀ (o : Origin) (aye aye' : Value) (n : Int), 0 < n →
        let once := c.perform (.vote o p aye (.int n))
        let twice := c.recast o p aye' aye n
        let back := once.state.perform (.vote o p aye' (.int 0))
        (∀ old, c.assembly.ballot? p o.account = some old →
          old.aye ≠ aye.truthy ∨ old.weight ≠ n →
            ((∃ a, once.result = .ok a) ↔ ∃ a, twice.result = .ok a) ∧
            (∀ f, once.result = .error f → ∃ g, twice.result = .error g ∧
              (Value.isWritable p = true → g.kind = f.kind)) ∧
            ∀ a, once.result = .ok a → once.state.Level twice.state) ∧
          (c.assembly.ballot? p o.account = none → ∀ a, once.result = .ok a →
            (∃ a', back.result = .ok a') ∧ c.Level back.state) := by
  intro c
  have hstart := Backed.empty limits clock symbol opening
  have hb : c.Backed := ledgerRun_backed hstart hu
  have h := ledgerRun_counted hstart (.empty limits clock _) hu
  refine ⟨fun hids p x hx => ?_, fun p x hx hk ha o aye aye' n hn => ?_⟩
  · have hnumbered := (Later.ledgerRun _ steps).numbered hstart.regular.orderly
      (.empty limits clock)
    exact hnumbered.isWritable hb.regular.orderly hids hx
  · intro once twice back
    refine ⟨fun old hlive hne => ?_, fun hnone a hcast => ?_⟩
    · rcases perform_recast hb h hx hk ha hn hlive hne aye' with
        ⟨a, a', hr, hr', hlevel⟩ | ⟨f, g, hr, hr', hkind⟩
      · refine ⟨⟨fun _ => ⟨a', hr'⟩, fun _ => ⟨a, hr⟩⟩, fun f hf => ?_, fun _ _ => hlevel⟩
        cases hf.symm.trans hr
      · refine ⟨⟨fun ⟨a, ha⟩ => ?_, fun ⟨a, ha⟩ => ?_⟩, fun f' hf => ?_, fun a ha => ?_⟩
        · cases ha.symm.trans hr
        · cases ha.symm.trans hr'
        · cases hf.symm.trans hr
          exact ⟨g, hr', hkind⟩
        · cases ha.symm.trans hr
    · exact perform_back hb h hx hk ha hn hnone hcast aye'

/-- Ann turns her vote of weight 3 into one of weight 2 against the proposal. -/
theorem ledgerRun_recast_turned :
    let c := Round.start.ledgerRun (Round.steps.take 7)
    let once := c.perform (.vote ⟨Round.ann, false⟩ 0 (.bool false) (.int 2))
    let twice := c.recast ⟨Round.ann, false⟩ 0 (.bool true) (.bool false) 2
    (∀ s ∈ Round.steps.take 7, s.isUnlock = false) ∧ (∃ a, twice.result = .ok a) ∧
      once.state.Level twice.state ∧ once.state.funds.frozenOf Round.ann = 4 := by
  intro c once twice
  have hu : ∀ s ∈ Round.steps.take 7, s.isUnlock = false := by decide
  have h := ledgerRun_recast .standard .zero Round.symbol Round.opening (Round.steps.take 7) hu
  obtain ⟨x, hx, hk, ha⟩ : ∃ x, c.assembly.proposal? 0 = some x ∧ x.kind = .publicVote ∧
      x.stageAt c.assembly.now = .active := ⟨_, rfl, by decide, by decide⟩
  obtain ⟨hrecast, -⟩ := h.2 0 x hx hk ha ⟨Round.ann, false⟩ (.bool false) (.bool true) 2
    (by decide)
  obtain ⟨hiff, -, hlevel⟩ := hrecast ⟨0, Round.ann, true, 3⟩ (by decide) (.inl (by decide))
  obtain ⟨a, hok⟩ : ∃ a, once.result = .ok a := ⟨_, rfl⟩
  exact ⟨hu, hiff.1 ⟨a, hok⟩, hlevel a hok, by decide⟩

end Chamber

end QuadraticVoting
