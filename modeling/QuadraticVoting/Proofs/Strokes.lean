import QuadraticVoting.Proofs.Conditions
import QuadraticVoting.Proofs.Defects
import QuadraticVoting.Proofs.Majorities
import QuadraticVoting.Proofs.Reconciliation

/-!
# Votes and claims to the last field

What a vote or a claim that passes its conditions writes is a `Stroke`: the voter's ballot
afterwards, what the two powers of the tally grow by, whether the proposal closes, and what the
frozen amount grows by. `Chamber.Struck` says of every record of a chamber what becomes of it under
a stroke. In a chamber whose ledger backs its ballots nothing else can stop such a call, but that
its notice has an id in it that is too large to be written: then the stroke is made, but for the
close and the events, and the call fails (`perform_vote_struck`, `perform_claim_struck`).

`ledgerRun_vote_exact` is the resulting specification of a vote, condition by condition and field by
field.
-/

namespace QuadraticVoting

structure Stroke where
  proposal : Int
  voter : Account
  /-- The voter's ballot on the proposal afterwards. -/
  ballot : Option Ballot
  /-- What the aye power of the tally grows by. -/
  aye : Int
  /-- What the total power of the tally grows by. -/
  total : Int
  closes : Bool
  /-- What is frozen of the voter's funds in addition. -/
  delta : Int
  events : List Event
deriving DecidableEq

namespace Stroke

/-- The proposal after a stroke. -/
def count (k : Stroke) (x : Proposal) : Proposal :=
  { x with
    tally := ⟨x.tally.aye + k.aye, x.tally.total + k.total⟩
    status := if k.closes then .closed else x.status }

end Stroke

namespace Ballot

/-- What is kept of a ballot: one of weight 0 only takes the one before it away. -/
def live (b : Ballot) : Option Ballot := if b.weight > 0 then some b else none

theorem locked_of_not_pos {b : Ballot} (h0 : 0 ≤ b.weight) (h : ¬ b.weight > 0) : b.locked = 0 := by
  have hw : b.weight = 0 := by omega
  rw [locked, hw]
  rfl

/-- The aye power of a ballot that another one replaces. -/
def priorAye : Option Ballot → Int
  | none => 0
  | some b => b.ayePower

/-- What a ballot makes of a proposal's tally, with the one that it replaces taken out. -/
def recount (b : Ballot) (prior : Option Ballot) (t : Tally) : Tally :=
  ⟨t.aye + (b.ayePower - priorAye prior), t.total + (b.locked - Assembly.priorCost prior)⟩

/-- What a vote with a ballot on a proposal answers. -/
def outcome (b : Ballot) (prior : Option Ballot) (x : Proposal) : VoteOutcome where
  proposal := b.proposal
  voter := b.voter
  previous := prior
  current := b.live
  delta := b.locked - Assembly.priorCost prior
  tally := b.recount prior x.tally
  autoClosed := x.kind = .privateVote && (b.recount prior x.tally).hasMajority

/-- What a vote with a ballot on a proposal writes, whether it can be told or not. -/
def voteStroke (b : Ballot) (prior : Option Ballot) (x : Proposal) (told : Bool) : Stroke where
  proposal := b.proposal
  voter := b.voter
  ballot := b.live
  aye := b.ayePower - priorAye prior
  total := b.locked - Assembly.priorCost prior
  closes := told && (b.outcome prior x).autoClosed
  delta := b.locked - Assembly.priorCost prior
  events := if told then Chamber.voteEvents (b.outcome prior x) else []

/-- What a claim of a ballot writes. -/
def claimStroke (b : Ballot) (told : Bool) : Stroke where
  proposal := b.proposal
  voter := b.voter
  ballot := none
  aye := 0
  total := 0
  closes := false
  delta := -b.locked
  events := if told then [.fundsClaimed b.proposal b.voter b.locked] else []

end Ballot

/-! ### Plans -/

section Plan

variable {s : Assembly} {spendable : Account → Int} {p : Int} {voter : Account} {aye : Bool}
  {weight : Value} {now : Int} {plan : VotePlan}

/-- With room for the new ballot, a plan counts it without stopping short. -/
theorem Assembly.Planned.tally_eq_recount
    (hp : Planned s spendable p voter aye weight now plan)
    (hroom : ∀ t, plan.proposal.tally.withdraw plan.prior = .ok t →
      t.total + plan.ballot.locked ≤ maxBalance ∧ t.aye + plan.ballot.locked ≤ maxBalance) :
    plan.tally = plan.ballot.recount plan.prior plan.proposal.tally := by
  obtain ⟨t, ht, he⟩ := hp.exists_withdraw
  have hfits := hroom t ht
  have hold := Tally.withdraw_eq ht
  have haye : (plan.prior.map Ballot.ayePower).getD 0 = Ballot.priorAye plan.prior := by
    cases plan.prior <;> rfl
  have hcost : (plan.prior.map Ballot.locked).getD 0 = priorCost plan.prior := by
    cases plan.prior <;> rfl
  rw [haye, hcost] at hold
  subst hold
  have hnew : (if plan.ballot.aye then plan.ballot.locked else 0) = plan.ballot.ayePower := rfl
  rw [he, Ballot.recount]
  split
  · rw [Tally.add_eq hfits.1 fun _ => hfits.2, hnew, Tally.mk.injEq]
    dsimp only
    omega
  · next hw =>
    have hnone := Ballot.locked_of_not_pos hp.weight_nonneg hw
    have hpower := plan.ballot.ayePower_le
    have hnonneg := plan.ballot.ayePower_nonneg
    rw [Tally.mk.injEq]
    omega

theorem VotePlan.outcome_eq
    (ht : plan.tally = plan.ballot.recount plan.prior plan.proposal.tally)
    (hd : plan.delta = plan.ballot.locked - Assembly.priorCost plan.prior) :
    plan.outcome = plan.ballot.outcome plan.prior plan.proposal := by
  unfold outcome Ballot.outcome closes
  rw [ht, hd]
  rfl

end Plan

namespace Chamber

/-! ### Struck chambers -/

/-- What a stroke makes of a chamber, record by record. -/
structure Struck (c c' : Chamber Ledger) (k : Stroke) : Prop where
  assembly_eq : c'.assembly = { c.assembly with
    proposals := c'.assembly.proposals
    ballots := c'.assembly.ballots
    journal := c.assembly.journal ++ k.events }
  proposal_eq : ∀ q, c'.assembly.proposal? q =
    if q = k.proposal then (c.assembly.proposal? q).map k.count else c.assembly.proposal? q
  ballot_eq : ∀ q v, c'.assembly.ballot? q v =
    if q = k.proposal ∧ v = k.voter then k.ballot else c.assembly.ballot? q v
  funds_eq : c'.funds = c.funds.shift k.voter k.delta

namespace Struck

variable {c c' : Chamber Ledger} {k : Stroke}

theorem registry_eq (h : c.Struck c' k) : c'.assembly.registry = c.assembly.registry :=
  (congrArg Assembly.registry h.assembly_eq).trans rfl

theorem now_eq (h : c.Struck c' k) : c'.assembly.now = c.assembly.now :=
  (congrArg Assembly.now h.assembly_eq).trans rfl

theorem frozenOf_eq (h : c.Struck c' k) (a : Account) :
    c'.funds.frozenOf a = c.funds.frozenOf a + if a = k.voter then k.delta else 0 := by
  rw [h.funds_eq, Ledger.frozenOf_shift]

end Struck

section Vote

variable {c : Chamber Ledger} {p : Int} {voter : Account} {aye : Bool} {weight : Value} {now : Int}
  {plan : VotePlan}

theorem count_voteStroke (ht : plan.tally = plan.ballot.recount plan.prior plan.proposal.tally)
    (told : Bool) : (plan.ballot.voteStroke plan.prior plan.proposal told).count plan.proposal =
      if told && plan.closes then { plan.counted with status := .closed } else plan.counted := by
  have hcloses : plan.closes = (plan.ballot.outcome plan.prior plan.proposal).autoClosed := by
    unfold VotePlan.closes
    rw [ht]
    rfl
  unfold Stroke.count Ballot.voteStroke VotePlan.counted
  rw [hcloses, ht]
  cases told && (plan.ballot.outcome plan.prior plan.proposal).autoClosed <;> rfl

variable [Host]

/-- A vote that can be told makes its stroke. -/
theorem struck_carry
    (hp : c.assembly.Planned (FundLock.spendable c.funds) p voter aye weight now plan)
    (hf : (FundLock.adjust c.funds voter plan.delta).result = .ok ())
    (ht : plan.tally = plan.ballot.recount plan.prior plan.proposal.tally) :
    c.Struck (append ⟨c.assembly.carry plan, (FundLock.adjust c.funds voter plan.delta).state⟩
      (voteEvents plan.outcome)) (plan.ballot.voteStroke plan.prior plan.proposal true) where
  assembly_eq := by
    show (c.assembly.carry plan).append _ = _
    rw [Assembly.carry_eq, plan.outcome_eq ht hp.delta_eq]
    rfl
  proposal_eq q := by
    show (c.assembly.carry plan).proposal? q = _
    by_cases hq : q = plan.ballot.proposal
    · subst hq
      rw [Assembly.proposal?_carry_self, hp.ballot_proposal, hp.proposal_eq]
      refine .trans ?_ (if_pos hp.ballot_proposal.symm).symm
      rw [Option.map_some, count_voteStroke ht, Bool.true_and]
    · exact (c.assembly.proposal?_carry_of_ne plan hq).trans (if_neg hq).symm
  ballot_eq q v := (c.assembly.ballot?_carry plan q v).trans (c.assembly.ballot?_write plan q v)
  funds_eq := by
    show _ = c.funds.shift plan.ballot.voter (plan.ballot.locked - Assembly.priorCost plan.prior)
    rw [← hp.delta_eq, hp.ballot_voter, ← Ledger.state_adjust_of_ok hf]
    rfl

/-- A vote that cannot be told makes its stroke, but for the close and the events. -/
theorem struck_write
    (hp : c.assembly.Planned (FundLock.spendable c.funds) p voter aye weight now plan)
    (hf : (FundLock.adjust c.funds voter plan.delta).result = .ok ())
    (ht : plan.tally = plan.ballot.recount plan.prior plan.proposal.tally) :
    c.Struck ⟨c.assembly.write plan, (FundLock.adjust c.funds voter plan.delta).state⟩
      (plan.ballot.voteStroke plan.prior plan.proposal false) where
  assembly_eq := by
    show _ = { c.assembly with
      proposals := (c.assembly.write plan).proposals
      ballots := (c.assembly.write plan).ballots
      journal := c.assembly.journal ++ [] }
    rw [List.append_nil]
    exact c.assembly.write_eq plan
  proposal_eq q := by
    refine (c.assembly.proposal?_write plan q).trans ?_
    by_cases hq : q = plan.ballot.proposal
    · subst hq
      rw [if_pos rfl, hp.ballot_proposal, hp.proposal_eq]
      refine .trans ?_ (if_pos hp.ballot_proposal.symm).symm
      rw [Option.map_some, count_voteStroke ht, Bool.false_and, if_neg Bool.false_ne_true]
    · rw [if_neg hq]
      exact (if_neg hq).symm
  ballot_eq q v := c.assembly.ballot?_write plan q v
  funds_eq := by
    show _ = c.funds.shift plan.ballot.voter (plan.ballot.locked - Assembly.priorCost plan.prior)
    rw [← hp.delta_eq, hp.ballot_voter, ← Ledger.state_adjust_of_ok hf]

end Vote

/-! ### Votes -/

variable {c : Chamber Ledger} {gone : List Ballot}

section AnyHost

variable [Host]

/-- A vote fails with its first failing condition, or makes its stroke. -/
theorem perform_vote_struck (hb : c.Backed) (h : c.assembly.Counted c.funds.issuance gone)
    (o : Origin) (p : Int) (aye weight : Value) :
    let r := c.perform (.vote o p aye weight)
    let conditions := c.assembly.voteConditions c.funds.spendable o p aye.truthy weight
    (∀ f, firstFault conditions = some f → r.result = .error f.told ∧ r.state = c) ∧
      (firstFault conditions = none → ∃ n x, weight = .int n ∧ c.assembly.proposal? p = some x ∧
        let b : Ballot := ⟨p, o.account, aye.truthy, n⟩
        let prior := c.assembly.ballot? p o.account
        r.result = (if Value.isWritable p then .ok (.outcome (b.outcome prior x))
          else .error (.excess .integer)) ∧
        c.Struck r.state (b.voteStroke prior x (Value.isWritable p))) := by
  intro r conditions
  have hasks : Asks (o.signer >>= fun voter => c.assembly.planVote (FundLock.spendable c.funds) p
      voter aye.truthy weight c.assembly.now) conditions := by
    refine Assembly.asks_vote fun x hx => ?_
    cases hv : c.assembly.ballot? p o.account with
    | none => exact ⟨_, rfl⟩
    | some b => exact h.remove_ok hx hv
  constructor
  · intro f hf
    exact perform_of_checks_error (hasks.stops_discard hf)
  · intro hnone
    obtain ⟨plan, hplan⟩ := hasks.passes hnone
    obtain ⟨voter, ho, hplan⟩ := bind_eq_ok_iff.1 hplan
    obtain rfl := (Origin.signer_eq_ok_iff.1 ho).2.1
    have hp := Assembly.planVote_eq_ok_iff.1 hplan
    have hf := hb.adjust_ok hp
    have hx := h.tally_of_open hp.proposal_eq hp.is_open
    have hsum := Int.le_trans (hb.sumOn_write_le hp) hb.regular.sound.capped
    have ht := hp.tally_eq_recount fun t ht => hp.unsaturated hx hsum ht
    refine ⟨plan.ballot.weight, plan.proposal, hp.weight_eq, hp.proposal_eq, ?_⟩
    rw [← hp.ballot_eq, ← hp.prior_eq]
    cases hw : Value.isWritable p with
    | true =>
      have hn := (hp.isWritable_notices hb.regular.orderly).2 hw
      have hdone := (Change.voted ho hplan hf).perform_of_writable hn
      refine ⟨hdone.1.trans ?_, hdone.2 ▸ struck_carry hp hf ht⟩
      rw [plan.outcome_eq ht hp.delta_eq]
      exact (if_pos rfl).symm
    | false =>
      have hn : ¬ plan.notice.Writable := by
        rw [hp.isWritable_notice hb.regular.orderly, hw]
        exact Bool.false_ne_true
      have hstop := perform_vote_of_not_writable ho hplan hf hn
      exact ⟨hstop.1, hstop.2 ▸ struck_write hp hf ht⟩

/-! ### Claims -/

theorem struck_dropBallot {p : Int} {voter : Account} {b : Ballot} (h : c.assembly.Orderly)
    (hb : checkClaim c.assembly voter p = .ok b)
    (hf : (FundLock.unlock c.funds voter b.locked).result = .ok ()) (told : Bool) :
    c.Struck (append ⟨c.assembly.dropBallot p voter,
      (FundLock.unlock c.funds voter b.locked).state⟩ (b.claimStroke told).events)
      (b.claimStroke told) := by
  have hlive := h.ballots (checkClaim_eq_ok_iff.1 hb).2.2
  obtain rfl := hlive.proposal_eq
  obtain rfl := hlive.voter_eq
  refine {
    assembly_eq := ?_
    proposal_eq := fun q => ?_
    ballot_eq := fun q v => c.assembly.ballot?_dropBallot b.proposal b.voter q v
    funds_eq := (state_unlock_of_claim h hb hf).2 }
  · show (c.assembly.dropBallot _ _).append _ = _
    rw [Assembly.dropBallot_eq]
    rfl
  · -- Nothing is added to the tally, and nothing closes.
    have hcount : ∀ x, (b.claimStroke told).count x = x := by
      intro x
      simp [Stroke.count, Ballot.claimStroke]
    refine (c.assembly.proposal?_dropBallot b.proposal q b.voter).trans ?_
    rw [funext hcount]
    simp

theorem perform_claim_struck (hb : c.Backed) (o : Origin) (p : Int) :
    let r := c.perform (.claim o p)
    let conditions := c.assembly.claimConditions o p
    (∀ f, firstFault conditions = some f → r.result = .error f.told ∧ r.state = c) ∧
      (firstFault conditions = none → ∃ b, c.assembly.ballot? p o.account = some b ∧
        r.result = (if Value.isWritable p then .ok (.amount b.locked)
          else .error (.excess .integer)) ∧
        c.Struck r.state (b.claimStroke (Value.isWritable p))) := by
  intro r conditions
  have hasks : Asks _ conditions := Assembly.asks_claim o
  refine ⟨fun f hf => perform_of_checks_error (hasks.stops_discard hf), fun hnone => ?_⟩
  obtain ⟨b, hclaim⟩ := hasks.passes hnone
  obtain ⟨voter, ho, hclaim⟩ := bind_eq_ok_iff.1 hclaim
  obtain rfl := (Origin.signer_eq_ok_iff.1 ho).2.1
  have hlive := (checkClaim_eq_ok_iff.1 hclaim).2.2
  have hfiled := hb.regular.orderly.ballots hlive
  have hf := hb.unlock_ok hlive
  have hchange := Change.claimed ho hclaim hf
  have htold := (hchange.writable_iff hb.regular.orderly).trans List.forall_mem_singleton
  obtain ⟨hr, hs⟩ := hchange.perform_ite nofun htold
  refine ⟨b, hlive, hr, hs ▸ ?_⟩
  have hstruck := struck_dropBallot hb.regular.orderly hclaim hf (Value.isWritable p)
  rwa [Ballot.claimStroke, hfiled.proposal_eq, hfiled.voter_eq] at hstruck ⊢

/-! ### The specification of a vote -/

/-- In a run with any calls, mints and locks, but without unlocks on the ledger itself: a vote
succeeds if and only if all of its conditions hold and the id can be written. If one does not hold,
the first of them is told, and nothing changes. If all do, the ballot and the tally of the proposal
and what is frozen of the voter's funds are the ones that the weight gives, and nothing else
changes; the answer says so. -/
theorem ledgerRun_vote_exact (limits : Limits) (clock : Clock) (symbol : Text)
    (opening : List (Account × Int)) (steps : List LedgerStep)
    (hu : ∀ s ∈ steps, s.isUnlock = false) (o : Origin) (p : Int) (aye weight : Value) :
    let c := (Chamber.empty limits clock (Ledger.create symbol opening).state).ledgerRun steps
    let r := c.perform (.vote o p aye weight)
    let v := o.account
    let conditions := c.assembly.voteConditions c.funds.spendable o p aye.truthy weight
    ((∃ a, r.result = .ok a) ↔
        (∀ k ∈ conditions, k.holds = true) ∧ Value.isWritable p = true) ∧
      (∀ f, firstFault conditions = some f → r.result = .error f.told ∧ r.state = c) ∧
      ((∀ k ∈ conditions, k.holds = true) →
        ∃ n x, weight = .int n ∧ c.assembly.proposal? p = some x ∧
          let b : Ballot := ⟨p, v, aye.truthy, n⟩
          let old := c.assembly.ballot? p v
          let new := if n > 0 then some b else none
          let delta := n * n - Assembly.priorCost old
          let tally : Tally :=
            ⟨x.tally.aye + (b.ayePower - Ballot.priorAye old), x.tally.total + delta⟩
          let closes := decide (x.kind = .privateVote) && tally.hasMajority
          r.result = (if Value.isWritable p then
              .ok (.outcome ⟨p, v, old, new, delta, tally, closes⟩)
            else .error (.excess .integer)) ∧
          (∀ q w, r.state.assembly.ballot? q w =
            if q = p ∧ w = v then new else c.assembly.ballot? q w) ∧
          (∀ q, r.state.assembly.proposal? q =
            if q = p then
              some { x with
                tally := tally
                status := if Value.isWritable p && closes then .closed else x.status }
            else c.assembly.proposal? q) ∧
          r.state.assembly.registry = c.assembly.registry ∧
          (∀ w, r.state.funds.frozenOf w = c.funds.frozenOf w + if w = v then delta else 0) ∧
          r.state.funds.balances = c.funds.balances) := by
  intro c r v conditions
  have hstart := Backed.empty limits clock symbol opening
  have hb : c.Backed := ledgerRun_backed hstart hu
  have h := ledgerRun_counted hstart (.empty limits clock _) hu
  obtain ⟨hstops, hstrikes⟩ := perform_vote_struck hb h o p aye weight
  refine ⟨⟨fun ⟨a, ha⟩ => ?_, fun ⟨hall, hw⟩ => ?_⟩, hstops, fun hall => ?_⟩
  · cases hfirst : firstFault conditions with
    | some f => cases ha.symm.trans (hstops f hfirst).1
    | none =>
      obtain ⟨n, x, -, -, hr, -⟩ := hstrikes hfirst
      refine ⟨firstFault_eq_none_iff.1 hfirst, ?_⟩
      by_contra hw
      cases ha.symm.trans (hr.trans (if_neg hw))
  · obtain ⟨n, x, -, -, hr, -⟩ := hstrikes (firstFault_eq_none_iff.2 hall)
    exact ⟨_, hr.trans (if_pos hw)⟩
  · obtain ⟨n, x, hweight, hx, hr, hstruck⟩ := hstrikes (firstFault_eq_none_iff.2 hall)
    refine ⟨n, x, hweight, hx, hr, hstruck.ballot_eq, fun q => ?_, hstruck.registry_eq,
      hstruck.frozenOf_eq, (c.perform_minted _).1⟩
    refine (hstruck.proposal_eq q).trans ?_
    by_cases hq : q = p
    · subst hq
      rw [if_pos rfl, hx]
      exact (if_pos rfl).trans rfl
    · rw [if_neg hq]
      exact if_neg hq

end AnyHost

/-- Ann lowers her vote from weight 3 to weight 2, which frees 5 of her funds. -/
theorem ledgerRun_vote_exact_lowered :
    let c := Round.start.ledgerRun (Round.steps.take 7)
    let r := c.perform (.vote ⟨Round.ann, false⟩ 0 (.bool true) (.int 2))
    (∀ s ∈ Round.steps.take 7, s.isUnlock = false) ∧ (∃ a, r.result = .ok a) ∧
      c.funds.frozenOf Round.ann = 9 ∧ r.state.funds.frozenOf Round.ann = 4 := by
  intro c r
  have hu : ∀ s ∈ Round.steps.take 7, s.isUnlock = false := by decide
  have h := ledgerRun_vote_exact .standard .zero Round.symbol Round.opening (Round.steps.take 7) hu
    ⟨Round.ann, false⟩ 0 (.bool true) (.int 2)
  have hall : ∀ k ∈ c.assembly.voteConditions c.funds.spendable ⟨Round.ann, false⟩ 0 true (.int 2),
      k.holds = true := by decide
  refine ⟨hu, h.1.2 ⟨hall, by decide⟩, by decide, ?_⟩
  obtain ⟨n, x, hn, -, -, -, -, -, hfrozen, -⟩ := h.2.2 hall
  cases hn
  exact (hfrozen Round.ann).trans (by decide)

/-- A proposal whose last block has more digits than can be written. Once that block is over, a
vote on it is not told so. -/
theorem ended_vote_is_not_told :
    let start := Chamber.empty wideLimits .zero (Ledger.create Round.symbol []).state
    let steps := [.step (.call (.registerVoter .root Round.ann)),
      .step (.call (.createProposal ⟨Round.ann, false⟩
        ⟨.bytes [], .kind .publicVote, .none, 0, Value.writtenBound⟩)),
      .step (.setBlock (Value.writtenBound + 1))]
    let c := start.ledgerRun steps
    firstFault (c.assembly.voteConditions c.funds.spendable ⟨Round.ann, false⟩ 0 true (.int 1)) =
        some (.alreadyEnded 0 Value.writtenBound) ∧
      (c.perform (.vote ⟨Round.ann, false⟩ 0 (.bool true) (.int 1))).result =
        .error (.excess .integer) := by
  decide +kernel

end Chamber

end QuadraticVoting
