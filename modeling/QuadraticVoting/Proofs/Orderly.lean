import QuadraticVoting.Proofs.Course

/-!
# Orderly assemblies

What holds of the records of an assembly at any time: each proposal and each ballot is kept under
its own keys and under an id that has been handed out, the tallies are between zero and
`maxBalance`, and every live ballot has a weight of at least one whose square is a balance.

Nothing is assumed of the funds. `Chamber.Reachable` are the chambers that a host can come to with
any fund lock, also with one that it replaces between two calls.
-/

namespace QuadraticVoting

/-! ### Records -/

structure Tally.InRange (t : Tally) : Prop where
  aye_nonneg : 0 ≤ t.aye
  aye_le : t.aye ≤ maxBalance
  total_nonneg : 0 ≤ t.total
  total_le : t.total ≤ maxBalance

/-- A proposal kept under an id, when the next one to be handed out is another. -/
structure Proposal.Filed (x : Proposal) (p next : Int) : Prop where
  id_eq : x.id = p
  issued : p < next
  tally : x.tally.InRange

/-- A ballot kept under a proposal and a voter. -/
structure Ballot.Filed (b : Ballot) (p : Int) (v : Account) (next : Int) : Prop where
  proposal_eq : b.proposal = p
  voter_eq : b.voter = v
  issued : p < next
  weight_pos : 0 < b.weight
  weight_le : b.weight ≤ maxWeight

theorem Proposal.Filed.mono {x : Proposal} {p next next' : Int} (h : x.Filed p next)
    (hn : next ≤ next') : x.Filed p next' :=
  { h with issued := Int.lt_of_lt_of_le h.issued hn }

theorem Ballot.Filed.mono {b : Ballot} {p : Int} {v : Account} {next next' : Int}
    (h : b.Filed p v next) (hn : next ≤ next') : b.Filed p v next' :=
  { h with issued := Int.lt_of_lt_of_le h.issued hn }

namespace Tally

theorem InRange.zero : InRange .zero := ⟨by decide, by decide, by decide, by decide⟩

theorem InRange.add {t : Tally} (h : t.InRange) (aye : Bool) {n : Int} (hn : 0 ≤ n) :
    (t.add aye n).InRange := by
  obtain ⟨h1, h2, h3, h4⟩ := h
  have hm : 0 ≤ maxBalance := by decide
  refine ⟨?_, ?_, ?_, ?_⟩ <;> unfold Tally.add <;> dsimp only
  · split <;> omega
  · split <;> omega
  · omega
  · omega

theorem InRange.withdraw {t t' : Tally} (h : t.InRange) {prior : Option Ballot}
    (ht : t.withdraw prior = .ok t') : t'.InRange := by
  cases prior with
  | none =>
    cases ht
    exact h
  | some b =>
    obtain ⟨h1, h2, h3, h4⟩ := h
    obtain ⟨hle, ha, rfl⟩ := remove_eq_ok_iff.1 ht
    have h0 := b.locked_nonneg
    refine ⟨?_, ?_, ?_, ?_⟩ <;> dsimp only
    · split
      · next hb => have := ha hb; omega
      · exact h1
    · split <;> omega
    · omega
    · omega

end Tally

namespace Assembly

/-! ### What is written where -/

section Writing

variable (s : Assembly) (plan : VotePlan)

@[simp] theorem proposal?_putProposal (p q : Int) (x : Proposal) :
    (s.putProposal p x).proposal? q = if q = p then some x else s.proposal? q :=
  OrdMap.get?_insert ..

@[simp] theorem proposals_dropBallot (p : Int) (v : Account) :
    (s.dropBallot p v).proposals = s.proposals := by
  unfold dropBallot
  split <;> rfl

@[simp] theorem nextId_dropBallot (p : Int) (v : Account) :
    (s.dropBallot p v).nextId = s.nextId := by
  unfold dropBallot
  split <;> rfl

theorem proposal?_dropBallot (p q : Int) (v : Account) :
    (s.dropBallot p v).proposal? q = s.proposal? q := by
  unfold proposal?
  rw [proposals_dropBallot]

@[simp] theorem nextId_write : (s.write plan).nextId = s.nextId := by
  unfold write
  split
  · rfl
  · exact nextId_dropBallot ..

theorem proposal?_write (q : Int) : (s.write plan).proposal? q =
    if q = plan.ballot.proposal then some plan.counted else s.proposal? q := by
  unfold write
  split
  · exact proposal?_putProposal ..
  · rw [proposal?_dropBallot, proposal?_putProposal]

theorem ballot?_write (p : Int) (v : Account) : (s.write plan).ballot? p v =
    if p = plan.ballot.proposal ∧ v = plan.ballot.voter then plan.current else s.ballot? p v := by
  unfold write VotePlan.current
  split
  · exact ballot?_putBallot ..
  · exact ballot?_dropBallot ..

@[simp] theorem ballots_carry : (s.carry plan).ballots = (s.write plan).ballots := by
  unfold carry
  split <;> rfl

end Writing

/-! ### Orderly assemblies -/

structure Orderly (s : Assembly) : Prop where
  proposals : ∀ {p : Int} {x : Proposal}, s.proposal? p = some x → x.Filed p s.nextId
  ballots : ∀ {p : Int} {v : Account} {b : Ballot}, s.ballot? p v = some b →
    b.Filed p v s.nextId

namespace Orderly

variable {s : Assembly}

theorem empty (limits : Limits) (clock : Clock) : (Assembly.empty limits clock).Orderly where
  proposals h := by cases h
  ballots h := by cases h

theorem create (h : s.Orderly) {creator : Account} {d : Draft} {now : Int} {x : Proposal}
    (hx : s.draftProposal creator d now = .ok x) :
    Orderly { s with proposals := s.proposals.insert x.id x, nextId := s.nextId + 1 } := by
  obtain ⟨-, data, accounts, kind, -, -, -, -, rfl⟩ := draftProposal_eq_ok_iff.1 hx
  refine ⟨fun {p y} hp => ?_, fun hb => (h.ballots hb).mono (Int.le_of_lt (Int.lt_succ _))⟩
  rw [proposal?, OrdMap.get?_insert] at hp
  split at hp
  · next e =>
    cases hp
    subst e
    exact ⟨rfl, Int.lt_succ _, .zero⟩
  · exact (h.proposals hp).mono (Int.le_of_lt (Int.lt_succ _))

theorem cancel (h : s.Orderly) (p : Int) :
    Orderly { s with proposals := s.proposals.erase p } := by
  refine ⟨fun {q x} hq => ?_, h.ballots⟩
  rw [proposal?, OrdMap.get?_erase] at hq
  split at hq
  · cases hq
  · exact h.proposals hq

theorem putProposal (h : s.Orderly) {p : Int} {x : Proposal} (hx : x.Filed p s.nextId) :
    (s.putProposal p x).Orderly := by
  refine ⟨fun {q y} hq => ?_, h.ballots⟩
  rw [proposal?_putProposal] at hq
  split at hq
  · next e =>
    cases hq
    subst e
    exact hx
  · exact h.proposals hq

theorem dropBallot (h : s.Orderly) (p : Int) (v : Account) : (s.dropBallot p v).Orderly := by
  refine ⟨fun {q x} hq => ?_, fun {q w b} hb => ?_⟩
  · rw [proposal?_dropBallot] at hq
    rw [nextId_dropBallot]
    exact h.proposals hq
  · rw [ballot?_dropBallot] at hb
    split at hb
    · cases hb
    · rw [nextId_dropBallot]
      exact h.ballots hb

theorem ballot?_of_le (h : s.Orderly) {p : Int} (hp : s.nextId ≤ p) (v : Account) :
    s.ballot? p v = none := by
  cases hb : s.ballot? p v with
  | none => rfl
  | some b =>
    have := (h.ballots hb).issued
    omega

end Orderly

/-! ### Planned votes -/

namespace Planned

variable {s : Assembly} {spendable : Account → Int} {p : Int} {voter : Account} {aye : Bool}
  {weight : Value} {now : Int} {plan : VotePlan}

theorem ballot_proposal (h : Planned s spendable p voter aye weight now plan) :
    plan.ballot.proposal = p := by rw [h.ballot_eq]

theorem ballot_voter (h : Planned s spendable p voter aye weight now plan) :
    plan.ballot.voter = voter := by rw [h.ballot_eq]

/-- The tally that a vote leads to, from the tally without the ballot it replaces. -/
theorem exists_withdraw (h : Planned s spendable p voter aye weight now plan) :
    ∃ t, plan.proposal.tally.withdraw plan.prior = .ok t ∧ plan.tally =
      if plan.ballot.weight > 0 then t.add plan.ballot.aye plan.ballot.locked else t :=
  swapTally_eq_ok_iff.1 h.tally_eq

theorem tally_inRange (h : Planned s spendable p voter aye weight now plan)
    (ht : plan.proposal.tally.InRange) : plan.tally.InRange := by
  obtain ⟨t, hw, he⟩ := h.exists_withdraw
  rw [he]
  split
  · exact (ht.withdraw hw).add _ plan.ballot.locked_nonneg
  · exact ht.withdraw hw

theorem current_filed (h : Planned s spendable p voter aye weight now plan) {next : Int}
    (hp : p < next) {b : Ballot} (hb : plan.current = some b) : b.Filed p voter next := by
  unfold VotePlan.current at hb
  split at hb
  · next hw =>
    cases hb
    exact ⟨h.ballot_proposal, h.ballot_voter, hp, hw, h.weight_le⟩
  · cases hb

end Planned

namespace Orderly

variable {s : Assembly} {spendable : Account → Int} {p : Int} {voter : Account} {aye : Bool}
  {weight : Value} {now : Int} {plan : VotePlan}

theorem counted (h : s.Orderly) (hp : Planned s spendable p voter aye weight now plan) :
    plan.counted.Filed p s.nextId := by
  have hx := h.proposals hp.proposal_eq
  exact ⟨hx.id_eq, hx.issued, hp.tally_inRange hx.tally⟩

theorem write (h : s.Orderly) (hp : Planned s spendable p voter aye weight now plan) :
    (s.write plan).Orderly := by
  refine ⟨fun {q x} hq => ?_, fun {q w b} hb => ?_⟩
  · rw [proposal?_write, hp.ballot_proposal] at hq
    rw [nextId_write]
    split at hq
    · next e =>
      cases hq
      subst e
      exact h.counted hp
    · exact h.proposals hq
  · rw [ballot?_write, hp.ballot_proposal, hp.ballot_voter] at hb
    rw [nextId_write]
    split at hb
    · next e =>
      obtain ⟨rfl, rfl⟩ := e
      exact hp.current_filed (h.proposals hp.proposal_eq).issued hb
    · exact h.ballots hb

theorem carry (h : s.Orderly) (hp : Planned s spendable p voter aye weight now plan) :
    (s.carry plan).Orderly := by
  have hw := h.write hp
  unfold Assembly.carry
  split
  · refine hw.putProposal ?_
    have hx := h.counted hp
    rw [nextId_write, hp.ballot_proposal]
    exact ⟨hx.id_eq, hx.issued, hx.tally⟩
  · exact hw

end Orderly

end Assembly

/-! ### Calls and steps -/

namespace Chamber

variable {σ : Type} [FundLock σ] {c c' : Chamber σ} {call : Call}

theorem Change.orderly {events : List Event} {notices : List Log.Notice} {a : Answer}
    (hc : c.Change call c' events notices a) (h : c.assembly.Orderly) : c'.assembly.Orderly := by
  cases hc with
  | registered | unregistered => exact ⟨h.proposals, h.ballots⟩
  | created ho hx => exact h.create hx
  | cancelled hx => exact h.cancel _
  | listed hx hl =>
    have hf := h.proposals (checkEditor_eq_ok_iff.1 hx).1
    exact h.putProposal ⟨hf.id_eq, hf.issued, hf.tally⟩
  | closed hx hc =>
    have hf := h.proposals (Assembly.checkClose_eq_ok_iff.1 hx).1
    exact h.putProposal ⟨hf.id_eq, hf.issued, hf.tally⟩
  | voted ho hp hf => exact h.carry (Assembly.planVote_eq_ok_iff.1 hp)
  | claimed ho hb hf => exact h.dropBallot ..

variable [Host]

theorem perform_orderly (h : c.assembly.Orderly) (call : Call) :
    (c.perform call).state.assembly.Orderly := by
  cases c.perform_course call with
  | refused hx hr hs | quiet hq hr hs | muted hq hr hs => rw [hs]; exact h
  | unfunded hu hr hs => rw [hs]; exact h
  | done hc hn hr hs =>
    rw [hs]
    have h' := hc.orderly h
    exact ⟨h'.proposals, h'.ballots⟩
  | untold hc hn hr hs => rw [hs]; exact hc.orderly h
  | halfway hh hr hs =>
    rw [hs]
    cases hh with
    | vote ho hp hf hn hcl => exact h.write (Assembly.planVote_eq_ok_iff.1 hp)

theorem step_orderly (h : c.assembly.Orderly) (s : Step) :
    (c.step s).state.assembly.Orderly := by
  cases s with
  | call x => exact perform_orderly h x
  | setBlock n => exact ⟨h.proposals, h.ballots⟩
  | advance n => exact ⟨h.proposals, h.ballots⟩

/-- The chambers that a host can come to. Between two steps it may do anything to the funds. -/
inductive Reachable (limits : Limits) (clock : Clock) : Chamber σ → Prop
  | start (funds : σ) : Reachable limits clock (.empty limits clock funds)
  | step {c : Chamber σ} (h : Reachable limits clock c) (s : Step) :
      Reachable limits clock (c.step s).state
  | host {c : Chamber σ} (h : Reachable limits clock c) (funds : σ) :
      Reachable limits clock (c.withFunds funds)

theorem Reachable.orderly {limits : Limits} {clock : Clock} (h : Reachable limits clock c) :
    c.assembly.Orderly := by
  induction h with
  | start funds => exact .empty limits clock
  | step _ s ih => exact step_orderly ih s
  | host _ funds ih => exact ih

theorem Reachable.run {limits : Limits} {clock : Clock} (h : Reachable limits clock c)
    (steps : List Step) : Reachable limits clock (c.run steps) := by
  induction steps generalizing c with
  | nil => exact h
  | cons s rest ih => exact ih (h.step s)

end Chamber

end QuadraticVoting
