import QuadraticVoting.Proofs.Backing

/-!
# Tallies count the ballots

The tally of a proposal is kept by adding and taking out single ballots, with sums that stop at
`maxBalance`, and a claim takes a ballot away without touching it. It is exact all the same: it is
what `tallyOf` counts anew over the live ballots and those that have been claimed
(`Assembly.Counted`). The sums never stop short, since what is locked is within the balances
(`Chamber.Backed`), and so within the issuance.
-/

namespace QuadraticVoting

/-- The tally of some ballots, counted anew. -/
def tallyOf (l : List Ballot) : Tally := ⟨power (l.filter (·.aye)), power l⟩

namespace Tally

/-- Taking out a ballot takes out its powers. -/
theorem withdraw_eq {t t' : Tally} {prior : Option Ballot} (h : t.withdraw prior = .ok t') :
    t' = ⟨t.aye - (prior.map Ballot.ayePower).getD 0,
      t.total - (prior.map Ballot.locked).getD 0⟩ := by
  cases prior with
  | none =>
    cases h
    simp
  | some b =>
    obtain ⟨-, -, rfl⟩ := remove_eq_ok_iff.1 h
    cases hb : b.aye <;> simp [Ballot.ayePower, hb]

/-- A sum within the largest balance does not stop short. -/
theorem add_eq {t : Tally} {aye : Bool} {n : Int} (ht : t.total + n ≤ maxBalance)
    (ha : aye = true → t.aye + n ≤ maxBalance) :
    t.add aye n = ⟨t.aye + if aye then n else 0, t.total + n⟩ := by
  unfold add
  cases aye with
  | false => simp only [Bool.false_eq_true, if_false, Int.add_zero, Int.min_eq_left ht]
  | true => simp only [if_true, Int.min_eq_left ht, Int.min_eq_left (ha rfl)]

end Tally

namespace Assembly

theorem tallyOf_ballotsOn (s : Assembly) (p : Int) :
    tallyOf (s.ballotsOn p) = ⟨s.sumOn p Ballot.ayePower, s.sumOn p Ballot.locked⟩ := by
  unfold tallyOf
  rw [power_filter]
  rfl

theorem tallyOf_append (l l' : List Ballot) : tallyOf (l ++ l') =
    ⟨(tallyOf l).aye + (tallyOf l').aye, (tallyOf l).total + (tallyOf l').total⟩ := by
  simp [tallyOf, power]

theorem aye_tallyOf_le (l : List Ballot) : (tallyOf l).aye ≤ (tallyOf l).total := by
  show power (l.filter (·.aye)) ≤ power l
  rw [power_filter]
  exact List.sum_le_sum fun b _ => b.ayePower_le

/-! ### Votes -/

section Vote

variable {s : Assembly} {spendable : Account → Int} {p : Int} {voter : Account} {aye : Bool}
  {weight : Value} {now : Int} {plan : VotePlan}

theorem Planned.sumOn_write (hp : Planned s spendable p voter aye weight now plan)
    (q : Int) (f : Ballot → Int) : (s.write plan).sumOn q f = if q = p then
      s.sumOn p f - (plan.prior.map f).getD 0 + (plan.current.map f).getD 0 else s.sumOn q f := by
  rw [Assembly.sumOn_write, hp.ballot_proposal, hp.ballot_voter, hp.prior_eq]
  split
  · next e => rw [e]
  · rfl

/-- A ballot of weight 0 counts as much as none. -/
theorem Planned.locked_current (hp : Planned s spendable p voter aye weight now plan) :
    (plan.current.map Ballot.locked).getD 0 = plan.ballot.locked := by
  unfold VotePlan.current
  split
  · rfl
  · have h0 : plan.ballot.weight = 0 := by
      have := hp.weight_nonneg
      omega
    simp [Ballot.locked, h0]

/-- An exact tally without the ballot that is replaced counts the other ballots. -/
theorem Planned.withdraw_eq_tallyOf (hp : Planned s spendable p voter aye weight now plan)
    (hx : plan.proposal.tally = tallyOf (s.ballotsOn p)) {t : Tally}
    (ht : plan.proposal.tally.withdraw plan.prior = .ok t) :
    t = tallyOf ((s.dropBallot p voter).ballotsOn p) := by
  have he := Tally.withdraw_eq ht
  rw [hx, tallyOf_ballotsOn, hp.prior_eq] at he
  rw [he, tallyOf_ballotsOn, sumOn_dropBallot, sumOn_dropBallot, if_pos rfl, if_pos rfl]

/-- There is room for the new ballot in both powers, if the ballots that will then be live are
within the largest balance. -/
theorem Planned.unsaturated (hp : Planned s spendable p voter aye weight now plan)
    (hx : plan.proposal.tally = tallyOf (s.ballotsOn p))
    (hsum : (s.write plan).sumOn p Ballot.locked ≤ maxBalance) {t : Tally}
    (ht : plan.proposal.tally.withdraw plan.prior = .ok t) :
    t.total + plan.ballot.locked ≤ maxBalance ∧ t.aye + plan.ballot.locked ≤ maxBalance := by
  have he := hp.withdraw_eq_tallyOf hx ht
  have haye : t.aye ≤ t.total := he ▸ aye_tallyOf_le _
  have htotal : t.total = s.sumOn p Ballot.locked - (plan.prior.map Ballot.locked).getD 0 := by
    rw [he, tallyOf_ballotsOn, hp.prior_eq]
    exact (sumOn_dropBallot ..).trans (if_pos rfl)
  rw [hp.sumOn_write, if_pos rfl, hp.locked_current] at hsum
  omega

/-- The tally that a vote leads to counts the ballots that are live after it. -/
theorem Planned.tally_eq_tallyOf (hp : Planned s spendable p voter aye weight now plan)
    (hx : plan.proposal.tally = tallyOf (s.ballotsOn p))
    (hsum : (s.write plan).sumOn p Ballot.locked ≤ maxBalance) :
    plan.tally = tallyOf ((s.write plan).ballotsOn p) := by
  obtain ⟨t, ht, he⟩ := hp.exists_withdraw
  have hroom := hp.unsaturated hx hsum ht
  have hw := Tally.withdraw_eq ht
  rw [hx, tallyOf_ballotsOn] at hw
  rw [he, tallyOf_ballotsOn, hp.sumOn_write, hp.sumOn_write, if_pos rfl, if_pos rfl]
  unfold VotePlan.current
  split
  · rw [Tally.add_eq hroom.1 fun _ => hroom.2, hw]
    rfl
  · rw [hw]
    simp

end Vote

/-! ### Counted assemblies -/

/-- Every tally counts the live ballots and those that are gone, which were on closed proposals,
and is within the issuance. -/
structure Counted (s : Assembly) (issuance : Int) (gone : List Ballot) : Prop where
  tally_eq : ∀ {p : Int} {x : Proposal}, s.proposal? p = some x →
    x.tally = tallyOf (s.ballotsOn p ++ gone.filter (·.proposal = p))
  within : ∀ {p : Int} {x : Proposal}, s.proposal? p = some x → x.tally.total ≤ issuance
  gone_closed : ∀ {b : Ballot} {x : Proposal}, b ∈ gone → s.proposal? b.proposal = some x →
    x.isClosed = true
  gone_issued : ∀ {b : Ballot}, b ∈ gone → b.proposal < s.nextId

namespace Counted

variable {s : Assembly} {issuance : Int} {gone : List Ballot}

theorem empty (limits : Limits) (clock : Clock) (issuance : Int) :
    (Assembly.empty limits clock).Counted issuance [] where
  tally_eq h := by cases h
  within h := by cases h
  gone_closed h := by cases h
  gone_issued h := by cases h

theorem mono (h : s.Counted issuance gone) {issuance' : Int} (hi : issuance ≤ issuance') :
    s.Counted issuance' gone :=
  { h with within := fun hx => Int.le_trans (h.within hx) hi }

/-- Only proposals, ballots and the next id matter. -/
theorem congr (h : s.Counted issuance gone) {s' : Assembly} (hp : s'.proposals = s.proposals)
    (hb : s'.ballots = s.ballots) (hn : s'.nextId = s.nextId) : s'.Counted issuance gone := by
  have hprop : ∀ p, s'.proposal? p = s.proposal? p := fun p => congrArg (·.get? p) hp
  have hon : ∀ p, s'.ballotsOn p = s.ballotsOn p := fun p => by
    unfold ballotsOn
    rw [hb]
  refine ⟨fun {p x} hx => ?_, fun {p x} hx => ?_, fun {b x} hb hx => ?_, fun {b} hb => ?_⟩
  · rw [hprop] at hx
    rw [hon]
    exact h.tally_eq hx
  · rw [hprop] at hx
    exact h.within hx
  · rw [hprop] at hx
    exact h.gone_closed hb hx
  · rw [hn]
    exact h.gone_issued hb

/-- The tally of an open proposal counts its live ballots. -/
theorem tally_of_open (h : s.Counted issuance gone) {p : Int} {x : Proposal}
    (hx : s.proposal? p = some x) (ho : x.isClosed = false) :
    x.tally = tallyOf (s.ballotsOn p) := by
  have hnil : gone.filter (·.proposal = p) = [] := by
    refine List.filter_eq_nil_iff.2 fun b hb he => ?_
    rw [decide_eq_true_eq] at he
    rw [h.gone_closed hb (he ▸ hx)] at ho
    cases ho
  have ht := h.tally_eq hx
  rwa [hnil, List.append_nil] at ht

theorem create (h : s.Counted issuance gone) (ho : s.Orderly) (hi : 0 ≤ issuance)
    {creator : Account} {d : Draft} {now : Int} {x : Proposal}
    (hx : s.draftProposal creator d now = .ok x) :
    Counted { s with proposals := s.proposals.insert x.id x, nextId := s.nextId + 1 }
      issuance gone := by
  obtain ⟨-, data, accounts, kind, -, -, -, -, rfl⟩ := draftProposal_eq_ok_iff.1 hx
  have hlive : s.ballotsOn s.nextId = [] :=
    ballotsOn_eq_nil fun v => ho.ballot?_of_le (Int.le_refl _) v
  have hgone : gone.filter (·.proposal = s.nextId) = [] := by
    refine List.filter_eq_nil_iff.2 fun b hb he => ?_
    have := h.gone_issued hb
    simp only [decide_eq_true_eq] at he
    omega
  refine ⟨fun {p y} hy => ?_, fun {p y} hy => ?_, fun {b y} hb hy => ?_, fun {b} hb => ?_⟩
  · rw [proposal?, OrdMap.get?_insert] at hy
    split at hy
    · next e =>
      cases hy
      subst e
      show Tally.zero = tallyOf (s.ballotsOn s.nextId ++ gone.filter (·.proposal = s.nextId))
      rw [hlive, hgone]
      rfl
    · exact h.tally_eq hy
  · rw [proposal?, OrdMap.get?_insert] at hy
    split at hy
    · cases hy
      exact hi
    · exact h.within hy
  · rw [proposal?, OrdMap.get?_insert] at hy
    have := h.gone_issued hb
    rw [if_neg (by dsimp only; omega)] at hy
    exact h.gone_closed hb hy
  · exact Int.lt_trans (h.gone_issued hb) (Int.lt_succ _)

theorem cancel (h : s.Counted issuance gone) (p : Int) :
    Counted { s with proposals := s.proposals.erase p } issuance gone := by
  have hkept : ∀ {q x}, (s.proposals.erase p).get? q = some x → s.proposal? q = some x := by
    intro q x hq
    rw [OrdMap.get?_erase] at hq
    split at hq
    · cases hq
    · exact hq
  exact ⟨fun hq => h.tally_eq (hkept hq), fun hq => h.within (hkept hq),
    fun hb hq => h.gone_closed hb (hkept hq), h.gone_issued⟩

/-- Replacing a proposal by one with the same tally that is not open again. -/
theorem putProposal (h : s.Counted issuance gone) {p : Int} {x y : Proposal}
    (hx : s.proposal? p = some x) (ht : y.tally = x.tally)
    (hc : x.isClosed = true → y.isClosed = true) : (s.putProposal p y).Counted issuance gone := by
  refine ⟨fun {q z} hz => ?_, fun {q z} hz => ?_, fun {b z} hb hz => ?_, h.gone_issued⟩
  · rw [proposal?_putProposal] at hz
    split at hz
    · next e =>
      cases hz
      subst e
      rw [ht]
      exact h.tally_eq hx
    · exact h.tally_eq hz
  · rw [proposal?_putProposal] at hz
    split at hz
    · cases hz
      rw [ht]
      exact h.within hx
    · exact h.within hz
  · rw [proposal?_putProposal] at hz
    split at hz
    · next e =>
      cases hz
      subst e
      exact hc (h.gone_closed hb hx)
    · exact h.gone_closed hb hz

/-- A claim takes a ballot on a closed proposal away. -/
theorem dropBallot (h : s.Counted issuance gone) (ho : s.Orderly) {p : Int} {v : Account}
    {b : Ballot} {x : Proposal} (hx : s.proposal? p = some x) (hc : x.isClosed = true)
    (hb : s.ballot? p v = some b) : (s.dropBallot p v).Counted issuance (gone ++ [b]) := by
  have hbp : b.proposal = p := (ho.ballots hb).proposal_eq
  refine ⟨fun {q y} hy => ?_, fun {q y} hy => ?_, fun {b' y} hb' hy => ?_, fun {b'} hb' => ?_⟩
  · rw [proposal?_dropBallot] at hy
    rw [h.tally_eq hy, List.filter_append, tallyOf_append, tallyOf_append, tallyOf_append,
      tallyOf_ballotsOn, tallyOf_ballotsOn, sumOn_dropBallot, sumOn_dropBallot]
    by_cases hq : q = p
    · subst hq
      cases ha : b.aye <;> simp [hb, hbp, tallyOf, power, Ballot.ayePower, ha]
    · simp [hq, hbp, Ne.symm hq, tallyOf, power]
  · rw [proposal?_dropBallot] at hy
    exact h.within hy
  · rw [proposal?_dropBallot] at hy
    rcases List.mem_append.1 hb' with hb' | hb'
    · exact h.gone_closed hb' hy
    · rw [List.mem_singleton.1 hb', hbp, hx] at hy
      cases hy
      exact hc
  · rw [nextId_dropBallot]
    rcases List.mem_append.1 hb' with hb' | hb'
    · exact h.gone_issued hb'
    · rw [List.mem_singleton.1 hb', hbp]
      exact (ho.proposals hx).issued

variable {spendable : Account → Int} {p : Int} {voter : Account} {aye : Bool} {weight : Value}
  {now : Int} {plan : VotePlan}

theorem write (h : s.Counted issuance gone)
    (hp : Planned s spendable p voter aye weight now plan)
    (hsum : (s.write plan).sumOn p Ballot.locked ≤ issuance) (hi : issuance ≤ maxBalance) :
    (s.write plan).Counted issuance gone := by
  have hx := h.tally_of_open hp.proposal_eq hp.is_open
  have htally := hp.tally_eq_tallyOf hx (Int.le_trans hsum hi)
  have hopen : ∀ {b}, b ∈ gone → b.proposal ≠ p := by
    intro b hb he
    have hc := h.gone_closed hb (he ▸ hp.proposal_eq)
    rw [hp.is_open] at hc
    cases hc
  refine ⟨fun {q y} hy => ?_, fun {q y} hy => ?_, fun {b y} hb hy => ?_, fun {b} hb => ?_⟩
  · rw [proposal?_write, hp.ballot_proposal] at hy
    split at hy
    · next e =>
      cases hy
      subst e
      have hnil : gone.filter (·.proposal = q) = [] :=
        List.filter_eq_nil_iff.2 fun b hb he => hopen hb (of_decide_eq_true he)
      rw [hnil, List.append_nil]
      exact htally
    · next hne =>
      rw [h.tally_eq hy, tallyOf_append, tallyOf_append, tallyOf_ballotsOn, tallyOf_ballotsOn,
        hp.sumOn_write, hp.sumOn_write, if_neg hne, if_neg hne]
  · rw [proposal?_write, hp.ballot_proposal] at hy
    split at hy
    · cases hy
      show plan.tally.total ≤ issuance
      rw [htally, tallyOf_ballotsOn]
      exact hsum
    · exact h.within hy
  · rw [proposal?_write, hp.ballot_proposal, if_neg (hopen hb)] at hy
    exact h.gone_closed hb hy
  · rw [nextId_write]
    exact h.gone_issued hb

theorem carry (h : s.Counted issuance gone)
    (hp : Planned s spendable p voter aye weight now plan)
    (hsum : (s.write plan).sumOn p Ballot.locked ≤ issuance) (hi : issuance ≤ maxBalance) :
    (s.carry plan).Counted issuance gone := by
  have hw := h.write hp hsum hi
  have hx : (s.write plan).proposal? plan.ballot.proposal = some plan.counted := by
    rw [proposal?_write, if_pos rfl]
  unfold Assembly.carry
  split
  · exact hw.putProposal hx rfl fun _ => rfl
  · exact hw

end Counted

end Assembly

/-! ### What claims take away -/

namespace Chamber

variable {c c' : Chamber Ledger}

section AnyHost

variable [Host]

/-- The ballots that a call takes away by a claim: the caller's, if it is live before the call and
not after it. -/
def claimedBy (c : Chamber Ledger) (call : Call) : List Ballot :=
  match call with
  | .claim o p =>
    if (c.perform call).state.assembly.hasVoted p o.account then []
    else (c.assembly.ballot? p o.account).toList
  | .registerVoter .. | .unregisterVoter .. | .createProposal .. | .cancelProposal ..
  | .setAccountList .. | .vote .. | .closeProposal .. => []

def claimedIn (c : Chamber Ledger) : LedgerStep → List Ballot
  | .step (.call x) => c.claimedBy x
  | .step (.setBlock _) | .step (.advance _) | .mint .. | .lock .. | .unlock .. => []

/-- The ballots that a run takes away by claims, in order. -/
def claimed (c : Chamber Ledger) : List LedgerStep → List Ballot
  | [] => []
  | s :: rest => c.claimedIn s ++ claimed (c.ledgerStep s).state rest

theorem claimedBy_of_ballots {call : Call}
    (h : (c.perform call).state.assembly.ballots = c.assembly.ballots) : c.claimedBy call = [] := by
  cases call with
  | claim o p =>
    have hlive : ∀ v, (c.perform (.claim o p)).state.assembly.ballot? p v =
        c.assembly.ballot? p v := by
      intro v
      unfold Assembly.ballot?
      rw [h]
    unfold claimedBy Assembly.hasVoted
    dsimp only
    rw [hlive]
    cases c.assembly.ballot? p o.account with
    | none => rfl
    | some b => rfl
  | registerVoter | unregisterVoter | createProposal | cancelProposal | setAccountList | vote
  | closeProposal => rfl

theorem claimedBy_claim {o : Origin} {p : Int} {voter : Account} {b : Ballot}
    (ho : o.signer = .ok voter) (hb : checkClaim c.assembly voter p = .ok b)
    (hs : (c.perform (.claim o p)).state.assembly.ballots =
      (c.assembly.dropBallot p voter).ballots) : c.claimedBy (.claim o p) = [b] := by
  have hv : o.account = voter := (Origin.signer_eq_ok_iff.1 ho).2.1
  have hgone : (c.perform (.claim o p)).state.assembly.ballot? p voter = none := by
    refine Eq.trans ?_ ((c.assembly.ballot?_dropBallot p voter p voter).trans (if_pos ⟨rfl, rfl⟩))
    unfold Assembly.ballot?
    rw [hs]
  unfold claimedBy Assembly.hasVoted
  dsimp only
  rw [hv, hgone, (checkClaim_eq_ok_iff.1 hb).2.2]
  rfl

/-! ### Calls, steps and runs -/

section Counting

variable {gone : List Ballot} {call : Call}

theorem Change.counted {events : List Event} {notices : List Log.Notice} {a : Answer}
    (hc : c.Change call c' events notices a) (hb : c.Backed)
    (h : c.assembly.Counted c.funds.issuance gone)
    (hs : (c.perform call).state.assembly.ballots = c'.assembly.ballots) :
    c'.assembly.Counted c.funds.issuance (gone ++ c.claimedBy call) := by
  have hnil : ∀ {s : Assembly}, c.claimedBy call = [] → s.Counted c.funds.issuance gone →
      s.Counted c.funds.issuance (gone ++ c.claimedBy call) := by
    intro s he hcount
    rwa [he, List.append_nil]
  cases hc with
  | registered | unregistered => exact hnil rfl (h.congr rfl rfl rfl)
  | created ho hx =>
    exact hnil rfl (h.create hb.regular.orderly hb.regular.sound.issuance_nonneg hx)
  | cancelled hx => exact hnil rfl (h.cancel _)
  | listed hx hl => exact hnil rfl (h.putProposal (checkEditor_eq_ok_iff.1 hx).1 rfl id)
  | closed hx hc =>
    exact hnil rfl (h.putProposal (Assembly.checkClose_eq_ok_iff.1 hx).1 rfl fun _ => rfl)
  | voted ho hp hf =>
    have hplan := Assembly.planVote_eq_ok_iff.1 hp
    exact hnil rfl (h.carry hplan (hb.sumOn_write_le hplan) hb.regular.sound.capped)
  | claimed ho hc hf =>
    obtain ⟨-, ⟨x, hx, hclosed⟩, hlive⟩ := checkClaim_eq_ok_iff.1 hc
    rw [claimedBy_claim ho hc hs]
    exact h.dropBallot hb.regular.orderly hx hclosed hlive

theorem perform_counted (hb : c.Backed) (h : c.assembly.Counted c.funds.issuance gone)
    (call : Call) : (c.perform call).state.assembly.Counted (c.perform call).state.funds.issuance
      (gone ++ c.claimedBy call) := by
  rw [(c.perform_minted call).2]
  cases c.perform_course call with
  | refused hx hr hs | quiet hq hr hs | muted hq hr hs =>
    rw [claimedBy_of_ballots (by rw [hs]), hs, List.append_nil]
    exact h
  | unfunded hu hr hs =>
    rw [claimedBy_of_ballots (by rw [hs]; rfl), hs, List.append_nil]
    exact h
  | done hc hn hr hs =>
    have hcount := hc.counted hb h (by rw [hs]; rfl)
    rw [hs]
    exact hcount.congr rfl rfl rfl
  | untold hc hn hr hs =>
    have hcount := hc.counted hb h (by rw [hs])
    rw [hs]
    exact hcount
  | halfway hh hr hs =>
    rw [hs]
    cases hh with
    | vote ho hp hf hn hcl =>
      have hplan := Assembly.planVote_eq_ok_iff.1 hp
      have hcount := h.write hplan (hb.sumOn_write_le hplan) hb.regular.sound.capped
      rwa [← List.append_nil gone] at hcount

theorem ledgerStep_counted (hb : c.Backed) (h : c.assembly.Counted c.funds.issuance gone)
    (s : LedgerStep) : (c.ledgerStep s).state.assembly.Counted
      (c.ledgerStep s).state.funds.issuance (gone ++ c.claimedIn s) := by
  have hsame : ∀ {i : Int}, c.funds.issuance ≤ i → c.assembly.Counted i (gone ++ []) := by
    intro i hi
    rw [List.append_nil]
    exact h.mono hi
  cases s with
  | step s =>
    cases s with
    | call x => exact perform_counted hb h x
    | setBlock n => exact (hsame (Int.le_refl _)).congr rfl rfl rfl
    | advance n => exact (hsame (Int.le_refl _)).congr rfl rfl rfl
  | mint a n =>
    refine hsame (i := (c.funds.mint a n).state.issuance) ?_
    rw [Ledger.state_mint]
    split
    · next hm => exact Int.le_add_of_nonneg_right hm.2.1
    · exact Int.le_refl _
  | lock a n => exact hsame (Int.le_of_eq (c.funds.minted_lock a n).2.symm)
  | unlock a n => exact hsame (Int.le_of_eq (c.funds.minted_unlock a n).2.symm)

theorem ledgerRun_counted {steps : List LedgerStep} (hb : c.Backed)
    (h : c.assembly.Counted c.funds.issuance gone) (hu : ∀ s ∈ steps, s.isUnlock = false) :
    (c.ledgerRun steps).assembly.Counted (c.ledgerRun steps).funds.issuance
      (gone ++ c.claimed steps) := by
  induction steps generalizing c gone with
  | nil =>
    rw [claimed, List.append_nil]
    exact h
  | cons s rest ih =>
    have hs := ledgerStep_backed hb (hu s List.mem_cons_self)
    have hrest := ih hs (ledgerStep_counted hb h s) fun s' hs' => hu s' (List.mem_cons_of_mem _ hs')
    rwa [List.append_assoc] at hrest

end Counting

/-- Without unlocks on the ledger itself, both powers of every tally are those of the live ballots
and of the ones that have been claimed, and the total is within the issuance. Until the proposal
is closed, the tally is the one counted anew over the live ballots. -/
theorem ledgerRun_tally_exact (limits : Limits) (clock : Clock) (symbol : Text)
    (opening : List (Account × Int)) (steps : List LedgerStep)
    (hu : ∀ s ∈ steps, s.isUnlock = false) :
    let start := Chamber.empty limits clock (Ledger.create symbol opening).state
    let c := start.ledgerRun steps
    ∀ p x, c.assembly.proposal? p = some x →
      let live := c.assembly.ballotsOn p
      let gone := (start.claimed steps).filter (·.proposal = p)
      x.tally.total = power live + power gone ∧
        x.tally.aye = power (live.filter (·.aye)) + power (gone.filter (·.aye)) ∧
        (x.isClosed = false → x.tally = tallyOf live) ∧
        x.tally.aye ≤ x.tally.total ∧ x.tally.total ≤ c.funds.issuance := by
  intro start c p x hx live gone
  have hb : start.Backed := .empty limits clock symbol opening
  have h := ledgerRun_counted hb (.empty limits clock _) hu
  rw [List.nil_append] at h
  have ht : x.tally = tallyOf (live ++ gone) := h.tally_eq hx
  refine ⟨?_, ?_, h.tally_of_open hx, ht ▸ Assembly.aye_tallyOf_le _, h.within hx⟩
  · rw [ht, Assembly.tallyOf_append]
    rfl
  · rw [ht, Assembly.tallyOf_append]
    rfl

end AnyHost

theorem ledgerRun_tally_exact_round : (∀ s ∈ Round.steps, s.isUnlock = false) ∧
    ∃ x, (Round.start.ledgerRun Round.steps).assembly.proposal? 0 = some x ∧
      x.tally.total = 4 + 16 ∧ x.tally.aye = 4 + 0 := by
  have hu : ∀ s ∈ Round.steps, s.isUnlock = false := by decide
  have hsome : ((Round.start.ledgerRun Round.steps).assembly.proposal? 0).isSome = true := by
    decide
  obtain ⟨x, hx⟩ := Option.isSome_iff_exists.1 hsome
  have h := ledgerRun_tally_exact .standard .zero Round.symbol Round.opening Round.steps hu 0 x hx
  exact ⟨hu, x, hx, h.1.trans (by decide), h.2.1.trans (by decide)⟩

end Chamber

end QuadraticVoting
