import QuadraticVoting.Assembly.Replay
import QuadraticVoting.Proofs.Lineage

/-!
# What the journal tells again

The events of a change, read on the assembly before it, give the assembly after it
(`Change.replay`): the same voters, proposals, ids and ballots, in the same order. So reading a
journal from the empty assembly on gives the assembly that has written it, but for the clock and the
journal itself (`Assembly.bare`), as long as each change has been told.

The one change that is made to such an assembly without being told is a creation whose id, first or
last block is too large to be written (`Chamber.hides`). It uses up an id of which the journal says
nothing (`Assembly.untold`), and no later event makes up for that. As long as there is no such id,
every stored proposal has an id that can be written, and all that happens to it is told.
-/

namespace QuadraticVoting

/-- Whether an event tells of a new proposal. -/
def Event.creates : Event → Bool
  | proposalCreated .. => true
  | voterRegistered _ | voterUnregistered _ | proposalCancelled _ | accountListSet .. | voteCast ..
  | voteWithdrawn .. | proposalClosed .. | fundsClaimed .. => false

namespace VotePlan

theorem creates_event (plan : VotePlan) : plan.event.creates = false := by
  unfold event
  split <;> rfl

theorem creates_closingEvents (plan : VotePlan) : ∀ e ∈ plan.closingEvents, ¬ e.creates = true := by
  intro e he
  rw [(mem_closingEvents_iff.1 he).2]
  exact Bool.false_ne_true

end VotePlan

namespace Assembly

/-- An assembly without what no event tells. -/
def bare (s : Assembly) (clock : Clock) : Assembly := { s with clock := clock, journal := [] }

/-- How many ids have been handed out that the journal does not tell of. -/
def untold (s : Assembly) : Int := s.nextId - s.journal.countP Event.creates

/-! ### Reading events -/

theorem editProposal_of_some {s : Assembly} {p : Int} {x : Proposal} (hx : s.proposal? p = some x)
    (f : Proposal → Proposal) : s.editProposal p f = s.putProposal p (f x) := by
  unfold editProposal
  rw [hx]

theorem without_of_withdraw {t t' : Tally} {prior : Option Ballot}
    (h : t.withdraw prior = .ok t') : without t prior = t' := by
  cases prior with
  | none => exact Except.ok.inj h
  | some b =>
    show (t.remove b.aye b.locked).toOption.getD t = t'
    rw [show t.remove b.aye b.locked = .ok t' from h]
    rfl

theorem editProposal_bare (s : Assembly) (clock : Clock) (p : Int) (f : Proposal → Proposal) :
    (s.bare clock).editProposal p f = (s.editProposal p f).bare clock := by
  cases hx : s.proposal? p with
  | none =>
    have hb : (s.bare clock).proposal? p = none := hx
    rw [editProposal, hb, editProposal, hx]
  | some x =>
    have hb : (s.bare clock).proposal? p = some x := hx
    rw [editProposal_of_some hb, editProposal_of_some hx]
    rfl

theorem dropBallot_bare (s : Assembly) (clock : Clock) (p : Int) (v : Account) :
    (s.bare clock).dropBallot p v = (s.dropBallot p v).bare clock := by
  cases hm : s.ballots.get? p with
  | none =>
    have hb : (s.bare clock).ballots.get? p = none := hm
    rw [dropBallot, hb, dropBallot, hm]
  | some m =>
    have hb : (s.bare clock).ballots.get? p = some m := hm
    rw [dropBallot, hb, dropBallot, hm]
    rfl

theorem apply_bare (s : Assembly) (clock : Clock) (e : Event) :
    (s.bare clock).apply e = (s.apply e).bare clock := by
  cases e with
  | voterRegistered | voterUnregistered | proposalCreated | proposalCancelled => rfl
  | accountListSet | proposalClosed => exact editProposal_bare ..
  | voteCast b delta => exact congrArg (·.putBallot b) (s.editProposal_bare clock b.proposal _)
  | voteWithdrawn p v n =>
    show ((s.bare clock).editProposal p _).dropBallot p v = _
    rw [editProposal_bare]
    exact dropBallot_bare ..
  | fundsClaimed => exact dropBallot_bare ..

theorem replay_bare (s : Assembly) (clock : Clock) (events : List Event) :
    (s.bare clock).replay events = (s.replay events).bare clock := by
  induction events generalizing s with
  | nil => rfl
  | cons e rest ih =>
    show replay ((s.bare clock).apply e) rest = (replay (s.apply e) rest).bare clock
    rw [apply_bare, ih]

theorem nextId_apply (s : Assembly) (e : Event) :
    (s.apply e).nextId = s.nextId + if e.creates then 1 else 0 := by
  have hedit : ∀ (s : Assembly) p f, (s.editProposal p f).nextId = s.nextId := by
    intro s p f
    unfold editProposal
    split <;> rfl
  cases e with
  | voterRegistered | voterUnregistered | proposalCancelled => exact (Int.add_zero _).symm
  | proposalCreated => rfl
  | accountListSet | proposalClosed => exact (hedit ..).trans (Int.add_zero _).symm
  | voteCast => exact (hedit ..).trans (Int.add_zero _).symm
  | voteWithdrawn =>
    exact ((nextId_dropBallot ..).trans (hedit ..)).trans (Int.add_zero _).symm
  | fundsClaimed => exact (nextId_dropBallot ..).trans (Int.add_zero _).symm

theorem nextId_replay (s : Assembly) (events : List Event) :
    (s.replay events).nextId = s.nextId + events.countP Event.creates := by
  induction events generalizing s with
  | nil => exact (Int.add_zero _).symm
  | cons e rest ih =>
    have hone := s.nextId_apply e
    have hrest := ih (s.apply e)
    show (replay (s.apply e) rest).nextId = _
    rw [hrest, hone, List.countP_cons]
    split <;> omega

section Vote

variable {s : Assembly} {spendable : Account → Int} {p : Int} {voter : Account} {aye : Bool}
  {weight : Value} {now : Int} {plan : VotePlan}

/-- The tally that a reading comes to for a vote is the one that was written down. -/
theorem Planned.counted_eq (hp : Planned s spendable p voter aye weight now plan) :
    plan.counted = { plan.proposal with
      tally := if plan.ballot.weight > 0 then
        (without plan.proposal.tally plan.prior).add plan.ballot.aye plan.ballot.locked
      else without plan.proposal.tally plan.prior } := by
  obtain ⟨t, ht, htally⟩ := hp.exists_withdraw
  rw [without_of_withdraw ht, ← htally]
  rfl

theorem Planned.apply_event (hp : Planned s spendable p voter aye weight now plan) :
    s.apply plan.event = s.write plan := by
  have hstored : s.proposal? plan.ballot.proposal = some plan.proposal :=
    hp.ballot_proposal.symm ▸ hp.proposal_eq
  have hprior : s.ballot? plan.ballot.proposal plan.ballot.voter = plan.prior := by
    rw [hp.ballot_proposal, hp.ballot_voter, hp.prior_eq]
  have hcounted := hp.counted_eq
  unfold VotePlan.event write
  by_cases hw : plan.ballot.weight > 0
  · rw [if_pos hw] at hcounted
    rw [if_pos hw, if_pos hw, hcounted, apply, hprior]
    exact congrArg (·.putBallot plan.ballot) (editProposal_of_some hstored _)
  · rw [if_neg hw] at hcounted
    rw [if_neg hw, if_neg hw, hcounted, apply, hprior]
    exact congrArg (·.dropBallot plan.ballot.proposal plan.ballot.voter)
      (editProposal_of_some hstored _)

theorem Planned.replay_events (hp : Planned s spendable p voter aye weight now plan) :
    s.replay (Chamber.voteEvents plan.outcome) = s.carry plan := by
  rw [plan.voteEvents_outcome]
  show replay (s.apply plan.event) plan.closingEvents = _
  rw [hp.apply_event]
  unfold VotePlan.closingEvents carry
  split
  · have hself := (s.proposal?_write plan plan.ballot.proposal).trans (if_pos rfl)
    exact editProposal_of_some hself _
  · rfl

end Vote

end Assembly

namespace Chamber

variable {σ : Type} [FundLock σ] {c c' : Chamber σ} {call : Call} {events : List Event}
  {notices : List Log.Notice} {a : Answer}

/-! ### Changes and their events -/

/-- The events of a change tell all of it. -/
theorem Change.replay (hc : c.Change call c' events notices a) :
    c.assembly.replay events = c'.assembly := by
  cases hc with
  | registered | unregistered | cancelled => rfl
  | created ho hx =>
    obtain ⟨-, data, accounts, kind, -, -, -, -, rfl⟩ := Assembly.draftProposal_eq_ok_iff.1 hx
    rfl
  | listed hx hl => exact Assembly.editProposal_of_some (checkEditor_eq_ok_iff.1 hx).1 _
  | closed hx hc =>
    exact Assembly.editProposal_of_some (Assembly.checkClose_eq_ok_iff.1 hx).1 _
  | voted ho hp hf => exact (Assembly.planVote_eq_ok_iff.1 hp).replay_events
  | claimed ho hb hf =>
    rw [(Origin.signer_eq_ok_iff.1 ho).2.1]
    rfl

theorem Change.countP_creates (hc : c.Change call c' events notices a) :
    (events.countP Event.creates : Int) = if call.creates then 1 else 0 := by
  cases hc with
  | registered | unregistered | created | cancelled | listed | closed | claimed => rfl
  | @voted o p aye weight voter plan ho hp hf =>
    rw [VotePlan.voteEvents_outcome, List.countP_cons_of_neg (by simp [plan.creates_event]),
      List.countP_eq_zero.2 plan.creates_closingEvents]
    rfl

theorem Change.untold_append (hc : c.Change call c' events notices a) :
    (c'.assembly.append events).untold = c.assembly.untold := by
  have hnext := hc.nextId_eq
  have hcount := hc.countP_creates
  show c'.assembly.nextId - ((c'.assembly.journal ++ events).countP Event.creates : Int) = _
  rw [hc.journal, List.countP_append, Assembly.untold]
  omega

theorem Change.untold_eq (hc : c.Change call c' events notices a) :
    c'.assembly.untold = c.assembly.untold + if call.creates then 1 else 0 := by
  have hnext := hc.nextId_eq
  rw [Assembly.untold, hc.journal, Assembly.untold]
  omega

theorem Halfway.untold_eq (hh : c.Halfway call c') : c'.assembly.untold = c.assembly.untold := by
  have hjournal := hh.journal
  cases hh with
  | vote =>
    rw [Assembly.untold, hjournal, Assembly.untold]
    exact congrArg (· - _) (Assembly.nextId_write ..)

omit [FundLock σ] in
theorem numbers_of_not_creates (h : call.creates = false) :
    c.numbers call = call.proposal?.toList := by
  cases call with
  | createProposal => cases h
  | registerVoter | unregisterVoter | cancelProposal | setAccountList | vote | closeProposal
  | claim => rfl

/-! ### Any number of steps -/

/-- An assembly that is told again by its journal, if no id is missing from it. -/
structure Retold (limits : Limits) (clock : Clock) (s : Assembly) : Prop where
  untold_nonneg : 0 ≤ s.untold
  replay_eq : s.untold = 0 → (Assembly.empty limits clock).replay s.journal = s.bare clock
  isWritable : s.untold = 0 → ∀ {p x}, s.proposal? p = some x → Value.isWritable p = true

variable {limits : Limits} {clock : Clock}

theorem Retold.told (hr : Retold limits clock c.assembly) (h : c.assembly.Orderly)
    (hc : c.Change call c' events notices a) (hn : ∀ n ∈ notices, n.Writable) :
    Retold limits clock (c'.assembly.append events) := by
  have hsame := hc.untold_append
  refine ⟨hsame ▸ hr.untold_nonneg, fun h0 => ?_, fun h0 p x hx => ?_⟩
  · show (Assembly.empty limits clock).replay (c'.assembly.journal ++ events) = _
    calc (Assembly.empty limits clock).replay (c'.assembly.journal ++ events)
      _ = ((Assembly.empty limits clock).replay c.assembly.journal).replay events := by
        rw [hc.journal, Assembly.replay_append]
      _ = (c.assembly.bare clock).replay events := by rw [hr.replay_eq (hsame ▸ h0)]
      _ = c'.assembly.bare clock := by rw [Assembly.replay_bare, hc.replay]
  · rcases (hc.edit h p).lineage hx with ⟨y, hy, -⟩ | ⟨rfl, o, d, creator, rfl, -, -⟩
    · exact hr.isWritable (hsame ▸ h0) hy
    · exact hc.isWritable_nextId h hn rfl

/-- A change that is not told is a creation, or there is an id missing already. -/
theorem Retold.untold (hr : Retold limits clock c.assembly) (h : c.assembly.Orderly)
    (hc : c.Change call c' events notices a) (hn : ¬ ∀ n ∈ notices, n.Writable) :
    0 < c'.assembly.untold := by
  have hnonneg := hr.untold_nonneg
  have heq := hc.untold_eq
  cases hcreates : call.creates with
  | true =>
    rw [hcreates, if_pos rfl] at heq
    omega
  | false =>
    rw [hcreates, if_neg Bool.false_ne_true] at heq
    by_contra hnot
    refine hn ((hc.writable_iff h).2 fun k hk => ?_)
    rw [numbers_of_not_creates hcreates, Option.mem_toList] at hk
    obtain ⟨x, hx⟩ := hc.exists_proposal hk
    exact hr.isWritable (by omega) hx

theorem Retold.halfway (hr : Retold limits clock c.assembly) (h : c.assembly.Orderly)
    (hh : c.Halfway call c') : 0 < c'.assembly.untold := by
  have hnonneg := hr.untold_nonneg
  rw [hh.untold_eq]
  by_contra hnot
  obtain ⟨p, hp⟩ : ∃ p, call.proposal? = some p := by
    cases hh with
    | vote => exact ⟨_, rfl⟩
  obtain ⟨x, hx⟩ := hh.exists_proposal hp
  exact hh.ne_of_isWritable h (hr.isWritable (by omega) hx) hp

theorem perform_retold [Host] (h : c.assembly.Orderly) (hr : Retold limits clock c.assembly)
    (call : Call) : Retold limits clock (c.perform call).state.assembly := by
  have hmissing : ∀ {s : Assembly}, 0 < s.untold → Retold limits clock s := fun h =>
    ⟨Int.le_of_lt h, fun h0 => absurd h0 (by omega), fun h0 => absurd h0 (by omega)⟩
  refine perform_told call hr ?_ ?_ ?_
  · exact fun hc hn => hr.told h hc hn
  · exact fun hc hn => hmissing (hr.untold h hc hn)
  · exact fun hh => hmissing (hr.halfway h hh)

theorem Reachable.retold [Host] (h : Reachable limits clock c) : Retold limits clock c.assembly :=
  h.keeps (fun _ ho hr call => perform_retold ho hr call)
    (fun _ _ hr => ⟨hr.untold_nonneg, hr.replay_eq, hr.isWritable⟩)
    ⟨Int.le_refl 0, fun _ => rfl, fun _ {_ _} hx => (by cases hx)⟩

/-- A creation that is made and cannot be told. -/
def hides (c : Chamber σ) : Step → Bool
  | .call x => x.creates && (c.checks x).isOk && !(c.numbers x).all Value.isWritable
  | .setBlock _ | .advance _ => false

theorem hides_of_checks_error {f : Fault} (hf : c.checks call = .error f) :
    c.hides (.call call) = false := by
  simp [hides, hf, Except.isOk, Except.toBool]

theorem Change.hides_eq_false_iff (hc : c.Change call c' events notices a)
    (h : c.assembly.Orderly) (hcreates : call.creates = true) :
    c.hides (.call call) = false ↔ ∀ n ∈ notices, n.Writable := by
  rw [hc.writable_iff h]
  simp [hides, hcreates, hc.checks_eq_ok, Except.isOk, Except.toBool]

theorem step_untold [Host] (h : c.assembly.Orderly) (s : Step) :
    (c.step s).state.assembly.untold = c.assembly.untold + if c.hides s then 1 else 0 := by
  cases s with
  | setBlock | advance => exact (Int.add_zero _).symm
  | call x =>
    show (c.perform x).state.assembly.untold = _
    cases c.perform_course x with
    | refused hf hr hs =>
      rw [hs, hides_of_checks_error hf]
      exact (Int.add_zero _).symm
    | quiet hq hr hs | muted hq hr hs =>
      rw [hs]
      cases hq <;> exact (Int.add_zero _).symm
    | unfunded hu hr hs =>
      rw [hs]
      cases hu <;> exact (Int.add_zero _).symm
    | done hc hn hr hs =>
      have hall := List.all_eq_true.2 ((hc.writable_iff h).1 hn)
      rw [hs]
      refine (hc.untold_append).trans ?_
      simp [hides, hall]
    | untold hc hn hr hs =>
      have hall := mt (fun hall => (hc.writable_iff h).2 (List.all_eq_true.1 hall)) hn
      rw [hs, hc.untold_eq]
      simp only [hides, hc.checks_eq_ok, eq_false_of_ne_true hall]
      cases x.creates <;> rfl
    | halfway hh hr hs =>
      rw [hs, hh.untold_eq]
      cases hh
      exact (Int.add_zero _).symm

/-- Read from an empty assembly on, the journal gives the voters, the proposals, the next id and the
ballots, in the order in which they came, if and only if it tells of each id that has been handed
out. A step adds to the ids that it does not tell of if and only if it makes a creation that cannot
be told, and no step takes from them. This holds with any funds, whatever the host does to them
between two steps, and with any moves of the clock. -/
theorem reachable_retold_iff [Host] (limits : Limits) (clock : Clock)
    (h : c.Reachable limits clock) :
    ((Assembly.empty limits clock).replay c.assembly.journal = c.assembly.bare clock ↔
      c.assembly.untold = 0) ∧
      (∀ s, (c.step s).state.assembly.untold =
        c.assembly.untold + if c.hides s then 1 else 0) ∧
      0 ≤ c.assembly.untold := by
  have hr := h.retold
  refine ⟨⟨fun he => ?_, hr.replay_eq⟩, step_untold h.orderly, hr.untold_nonneg⟩
  have hnext := congrArg Assembly.nextId he
  have hcount := (Assembly.empty limits clock).nextId_replay c.assembly.journal
  have hstart : (Assembly.empty limits clock).nextId = 0 := rfl
  have hend : (c.assembly.bare clock).nextId = c.assembly.nextId := rfl
  unfold Assembly.untold
  omega

/-- Votes that are cast, raised and withdrawn, a list that is replaced and a proposal that is taken
off the agenda, told again. -/
theorem reachable_retold_iff_round :
    let start := Chamber.empty .standard .zero (⟨20, false, []⟩ : HostFunds)
    let c := start.run [
      .call (.registerVoter .root Round.ann),
      .call (.registerVoter .root Round.bob),
      .call (.createProposal ⟨Round.ann, false⟩ ⟨.bytes [], .kind .publicVote, .none, 1, 101⟩),
      .call (.createProposal ⟨Round.bob, false⟩ ⟨.bytes [], .kind .privateVote, .none, 1, 101⟩),
      .call (.setAccountList ⟨Round.bob, false⟩ 1 (.accounts [Round.ann])),
      .call (.cancelProposal ⟨Round.bob, false⟩ 1),
      .advance 1,
      .call (.vote ⟨Round.ann, false⟩ 0 (.bool true) (.int 2)),
      .call (.vote ⟨Round.bob, false⟩ 0 (.bool false) (.int 1)),
      .call (.vote ⟨Round.ann, false⟩ 0 (.bool true) (.int 3)),
      .call (.vote ⟨Round.bob, false⟩ 0 (.bool false) (.int 0))]
    c.Reachable .standard .zero ∧ c.assembly.journal.length = 10 ∧
      (Assembly.empty .standard .zero).replay c.assembly.journal = c.assembly.bare .zero := by
  intro start c
  have hreach : c.Reachable .standard .zero := (Reachable.start _).run _
  have h := reachable_retold_iff .standard .zero hreach
  exact ⟨hreach, by decide, h.1.2 (by decide)⟩

/-- A creation whose last block is too large to be written, and one that is told: read again, the
journal knows of one proposal and of one id, where there are two. -/
theorem create_is_not_retold :
    let start := Chamber.empty wideLimits .zero (Ledger.create Round.symbol []).state
    let c := start.ledgerRun [
      .step (.call (.registerVoter .root Round.ann)),
      .step (.call (.createProposal ⟨Round.ann, false⟩
        ⟨.bytes [], .kind .publicVote, .none, 0, Value.writtenBound⟩)),
      .step (.call (.createProposal ⟨Round.ann, false⟩
        ⟨.bytes [], .kind .publicVote, .none, 0, 101⟩))]
    let told := (Assembly.empty wideLimits .zero).replay c.assembly.journal
    told.proposals.keys = [1] ∧ c.assembly.proposals.keys = [0, 1] ∧
      told.nextId = 1 ∧ c.assembly.nextId = 2 := by
  decide +kernel

end Chamber

end QuadraticVoting
