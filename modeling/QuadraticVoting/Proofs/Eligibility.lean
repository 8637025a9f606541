import QuadraticVoting.Proofs.Lineage

/-!
# Votes on record stay admissible

Whether an account may vote on a proposal is asked when it votes, and the account list that decides
it can be replaced at other times. But a list is only replaced, and a proposal only taken off the
agenda, before its start, and votes are only cast from then on. So, as long as the clock never moves
back, every live ballot lies on a stored proposal that has started and whose list, as it is now,
lets the voter vote (`Assembly.Eligible`).

Each proposal goes back to the creation that handed out its id (`Onward.exists_creation`), and is
still of the kind that was asked for there.
-/

namespace QuadraticVoting

/-! ### Proposals that let an account vote -/

/-- A proposal that has started and lets an account vote. -/
structure Proposal.Admits (x : Proposal) (v : Account) (now : Int) : Prop where
  started : x.start ≤ now
  permits : x.permits v = true

namespace Proposal

variable {x y : Proposal} {v : Account} {now later : Int}

theorem Admits.mono (h : x.Admits v now) (hn : now ≤ later) : x.Admits v later :=
  ⟨Int.le_trans h.started hn, h.permits⟩

theorem Admits.congr (h : x.Admits v now) (hs : y.start = x.start) (hk : y.kind = x.kind)
    (hl : y.accounts = x.accounts) : y.Admits v now where
  started := hs ▸ h.started
  permits := by
    have hp := h.permits
    unfold Proposal.permits at hp ⊢
    rw [hk, hl]
    exact hp

theorem Admits.not_pending (h : x.Admits v now) : ¬ x.isPendingAt now = true := fun hp => by
  have hbefore := (isPendingAt_iff.1 hp).2
  have hstarted := h.started
  omega

theorem permits_iff : x.permits v = true ↔
    (v ∈ x.accounts.members ↔ x.kind = .privateVote) := by
  unfold permits Kind.admits AccountList.contains
  cases x.kind <;> simp

end Proposal

namespace Assembly

/-- The stored proposal, if there is one, has started and lets the account vote. -/
def Admits (s : Assembly) (p : Int) (v : Account) : Prop :=
  ∃ x, s.proposal? p = some x ∧ x.Admits v s.now

/-- Every live ballot is on a proposal that has started and lets its voter vote. -/
def Eligible (s : Assembly) : Prop := ∀ p v b, s.ballot? p v = some b → s.Admits p v

theorem Eligible.clock {s : Assembly} (h : s.Eligible) {clock : Clock} (hn : s.now ≤ clock.block) :
    Eligible { s with clock := clock } := fun p v b hb => by
  obtain ⟨x, hx, ha⟩ := h p v b hb
  exact ⟨x, hx, ha.mono hn⟩

/-- A vote leaves no ballots but those it finds and the one of its voter. -/
theorem Planned.admits_of_write {s : Assembly} {spendable : Account → Int} {p : Int}
    {voter : Account} {aye : Bool} {weight : Value} {plan : VotePlan}
    (hp : Planned s spendable p voter aye weight s.now plan) (h : s.Eligible) {q : Int}
    {v : Account} {b : Ballot} (hb : (s.write plan).ballot? q v = some b) : s.Admits q v := by
  rw [ballot?_write, hp.ballot_proposal, hp.ballot_voter] at hb
  split at hb
  · next hself =>
    obtain ⟨rfl, rfl⟩ := hself
    exact ⟨plan.proposal, hp.proposal_eq, hp.started, hp.permitted⟩
  · exact h q v b hb

end Assembly

namespace Chamber

variable {σ : Type} [FundLock σ] {c c' : Chamber σ} {call : Call} {events : List Event}
  {notices : List Log.Notice} {a : Answer} {p : Int} {v : Account} {b : Ballot} {x : Proposal}

/-! ### One call -/

/-- No call keeps an account from voting that could vote before it. -/
theorem Edit.admits {after : Option Proposal} (he : c.Edit p after call) (h : c.assembly.Orderly)
    (hx : c.assembly.proposal? p = some x) (ha : x.Admits v c.assembly.now) :
    ∃ y, after = some y ∧ y.Admits v c.assembly.now := by
  -- A list is replaced, and a proposal taken away, only while it is pending.
  have hpending : ∀ {y : Proposal}, c.assembly.proposal? p = some y →
      ¬ y.isPendingAt c.assembly.now = true := by
    intro y hy
    cases hx.symm.trans hy
    exact ha.not_pending
  cases he with
  | kept hsame => exact ⟨x, hsame.trans hx, ha⟩
  | created hp =>
    have hissued := (h.proposals hx).issued
    omega
  | cancelled hy =>
    obtain ⟨hy, -, hp⟩ := Assembly.checkCancel_eq_ok_iff.1 hy
    exact absurd hp (hpending hy)
  | listed hy hl =>
    have hp := (Assembly.checkAccountList_eq_ok_iff.1 hl).1
    exact absurd hp (hpending (checkEditor_eq_ok_iff.1 hy).1)
  | closed hy _ hput =>
    cases hx.symm.trans (Assembly.checkClose_eq_ok_iff.1 hy).1
    exact ⟨_, hput, ha.congr rfl rfl rfl⟩
  | counted _ hv _ hput =>
    cases hx.symm.trans hv.proposal_eq
    exact ⟨_, hput, ha.congr rfl rfl rfl⟩
  | decided _ hv _ hput =>
    cases hx.symm.trans hv.proposal_eq
    exact ⟨_, hput, ha.congr rfl rfl rfl⟩

theorem Change.admits (hc : c.Change call c' events notices a) (h : c.assembly.Eligible)
    (hb : c'.assembly.ballot? p v = some b) : c.assembly.Admits p v := by
  cases hc with
  | registered | unregistered | created | cancelled | listed | closed => exact h p v b hb
  | voted ho hp hf =>
    rw [Assembly.ballot?_carry] at hb
    exact (Assembly.planVote_eq_ok_iff.1 hp).admits_of_write h hb
  | claimed ho hclaim hf =>
    rw [Assembly.ballot?_dropBallot] at hb
    split at hb
    · cases hb
    · exact h p v b hb

section AnyHost

variable [Host]

theorem perform_eligible (ho : c.assembly.Orderly) (h : c.assembly.Eligible) (call : Call) :
    (c.perform call).state.assembly.Eligible := by
  intro p v b hb
  have hbefore : c.assembly.Admits p v := by
    refine perform_assembly (P := fun s => s.ballot? p v = some b → c.assembly.Admits p v) call
      (h p v b) ?_ ?_ ?_ hb
    · exact fun hc => hc.admits h
    · exact fun hc _ => hc.admits h
    · intro _ hh hb
      cases hh with
      | vote _ hp => exact (Assembly.planVote_eq_ok_iff.1 hp).admits_of_write h hb
  obtain ⟨x, hx, ha⟩ := hbefore
  obtain ⟨y, hy, hafter⟩ := (perform_edit ho call p).admits ho hx ha
  refine ⟨y, hy, ?_⟩
  unfold Assembly.now
  rw [perform_clock]
  exact hafter

/-! ### Any number of steps -/

theorem Onward.eligible (h : c.Onward c') (ho : c.assembly.Orderly) (he : c.assembly.Eligible) :
    c'.assembly.Eligible := by
  induction h with
  | refl => exact he
  | @step d h s hn ih =>
    cases s with
    | call x => exact perform_eligible (h.later.orderly ho) ih x
    | setBlock n => exact ih.clock hn
    | advance n => exact ih.clock hn
  | host _ funds ih => exact ih

/-- A stored proposal continues the one that a creation has put under its id. -/
theorem Onward.exists_creation {limits : Limits} {clock : Clock} {funds : σ}
    (h : (Chamber.empty limits clock funds).Onward c) (hx : c.assembly.proposal? p = some x) :
    ∃ d o draft y, (Chamber.empty limits clock funds).Onward d ∧ d.assembly.nextId = p ∧
      (d.perform (.createProposal o draft)).state.Onward c ∧
      (d.perform (.createProposal o draft)).state.assembly.proposal? p = some y ∧
      draft.kind.kind? = some y.kind ∧ y.Continues x := by
  induction h generalizing x with
  | refl => cases hx
  | @step e h s hn ih =>
    cases s with
    | call call =>
      have hedit := perform_edit (h.later.orderly (.empty limits clock)) call p
      rcases hedit.lineage hx with ⟨z, hz, hzx⟩ | ⟨hp, o, draft, creator, rfl, -, hdraft⟩
      · obtain ⟨d, o, draft, y, hd, hnext, hon, hy, hk, hyz⟩ := ih hz
        exact ⟨d, o, draft, y, hd, hnext, hon.step (.call call) hn, hy, hk, hyz.trans hzx⟩
      · refine ⟨e, o, draft, x, h, hp.symm, .refl, hx, ?_, .refl x⟩
        obtain ⟨-, data, accounts, kind, -, -, hkind, -, rfl⟩ :=
          Assembly.draftProposal_eq_ok_iff.1 hdraft
        exact KindArg.require_eq_ok_iff.1 hkind
    | setBlock n =>
      obtain ⟨d, o, draft, y, hd, hnext, hon, hrest⟩ := ih hx
      exact ⟨d, o, draft, y, hd, hnext, hon.step (.setBlock n) hn, hrest⟩
    | advance n =>
      obtain ⟨d, o, draft, y, hd, hnext, hon, hrest⟩ := ih hx
      exact ⟨d, o, draft, y, hd, hnext, hon.step (.advance n) hn, hrest⟩
  | host _ new ih =>
    obtain ⟨d, o, draft, y, hd, hnext, hon, hrest⟩ := ih hx
    exact ⟨d, o, draft, y, hd, hnext, hon.host new, hrest⟩

/-- As long as the clock never moves back, with any funds and whatever the host does to them, every
live ballot lies on a stored proposal that is not pending and whose account list, as it is now, lets
the voter vote: if it is private, the voter is on the list, and if it is public, the voter is not.
That proposal goes back to the creation that handed out its id, and is of the kind asked for
there. -/
theorem onward_eligible (limits : Limits) (clock : Clock) (funds : σ)
    (h : (Chamber.empty limits clock funds).Onward c) (p : Int) (v : Account) (b : Ballot)
    (hb : c.assembly.ballot? p v = some b) :
    ∃ x, c.assembly.proposal? p = some x ∧ x.stageAt c.assembly.now ≠ .pending ∧
      x.permits v = true ∧ (v ∈ x.accounts.members ↔ x.kind = .privateVote) ∧
      ∃ d o draft y, (Chamber.empty limits clock funds).Onward d ∧ d.assembly.nextId = p ∧
        (d.perform (.createProposal o draft)).state.Onward c ∧
        (d.perform (.createProposal o draft)).state.assembly.proposal? p = some y ∧
        draft.kind.kind? = some x.kind ∧ y.Continues x := by
  have heligible := h.eligible (.empty limits clock) fun _ _ _ hb => nomatch hb
  obtain ⟨x, hx, ha⟩ := heligible p v b hb
  obtain ⟨d, o, draft, y, hd, hnext, hon, hy, hkind, hyx⟩ := h.exists_creation hx
  refine ⟨x, hx, fun hs => ha.not_pending (decide_eq_true hs), ha.permits,
    Proposal.permits_iff.1 ha.permits, d, o, draft, y, hd, hnext, hon, hy, ?_, hyx⟩
  rw [hkind, hyx.kind_eq]

end AnyHost

/-- A private proposal gets its voter on the list while it is pending. After the vote the list can
no longer be emptied, nor the proposal be cancelled, and the ballot stays when its voter is
unregistered. -/
theorem onward_eligible_listed :
    let start := Chamber.empty .standard .zero (⟨20, false, []⟩ : HostFunds)
    let c := start.run [
      .call (.registerVoter .root Round.ann),
      .call (.registerVoter .root Round.bob),
      .call (.createProposal ⟨Round.ann, false⟩ ⟨.bytes [], .kind .privateVote, .none, 1, 101⟩),
      .call (.setAccountList ⟨Round.ann, false⟩ 0 (.accounts [Round.bob])),
      .advance 1,
      .call (.vote ⟨Round.bob, false⟩ 0 (.bool false) (.int 2)),
      .call (.setAccountList ⟨Round.ann, false⟩ 0 .none),
      .call (.cancelProposal ⟨Round.ann, false⟩ 0),
      .call (.unregisterVoter .root Round.bob)]
    start.Onward c ∧ c.assembly.ballot? 0 Round.bob = some ⟨0, Round.bob, false, 2⟩ ∧
      ∃ x, c.assembly.proposal? 0 = some x ∧ Round.bob ∈ x.accounts.members := by
  intro start c
  have honward : start.Onward c := Onward.refl.run (by decide)
  have hb : c.assembly.ballot? 0 Round.bob = some ⟨0, Round.bob, false, 2⟩ := by decide
  obtain ⟨x, hx, -, -, hlisted, -⟩ := onward_eligible .standard .zero _ honward 0 Round.bob _ hb
  refine ⟨honward, hb, x, hx, hlisted.2 ?_⟩
  have hkind : (c.assembly.proposal? 0).map Proposal.kind = some .privateVote := by decide
  rw [hx] at hkind
  exact Option.some.inj hkind

end Chamber

end QuadraticVoting
