import QuadraticVoting.Proofs.Backing

/-!
# When a call that fails changes nothing

A call that fails leaves the assembly as it was, with one exception: it has passed its checks, has
made its change, and only then finds an integer in its notice that is too large to be written. All
weights, locks and tallies of a reachable chamber can be written, so that integer is one of
`Chamber.numbers`: the id of the proposal, or the window of a new one. `perform_atomic_iff` says
exactly when a call is all or nothing, for any funds, and `perform_restores_iff` says the same of
a chamber with a ledger, whose amounts then stay as they were as well.
-/

namespace QuadraticVoting

/-! ### Amounts that can always be written -/

theorem Tally.InRange.isWritable {t : Tally} (h : t.InRange) :
    Value.isWritable t.aye = true ∧ Value.isWritable t.total = true :=
  ⟨Value.isWritable_of_le h.aye_nonneg h.aye_le, Value.isWritable_of_le h.total_nonneg h.total_le⟩

theorem isWritable_weight {w : Int} (h0 : 0 ≤ w) (h : w ≤ maxWeight) :
    Value.isWritable w = true ∧ Value.isWritable (w * w) = true := by
  have hw : maxWeight ≤ maxBalance := by decide
  have hsq : w * w ≤ maxWeight * maxWeight := Int.mul_le_mul h h h0 (by decide)
  have hmax := maxWeight_sq_le
  exact ⟨Value.isWritable_of_le h0 (by omega),
    Value.isWritable_of_le (Int.mul_nonneg h0 h0) (by omega)⟩

theorem Ballot.Filed.isWritable {b : Ballot} {p : Int} {v : Account} {next : Int}
    (h : b.Filed p v next) : Value.isWritable b.locked = true :=
  (isWritable_weight (Int.le_of_lt h.weight_pos) h.weight_le).2

namespace Assembly

variable {s : Assembly} {spendable : Account → Int} {p : Int} {voter : Account} {aye : Bool}
  {weight : Value} {now : Int} {plan : VotePlan}

theorem Planned.write_ne (hp : Planned s spendable p voter aye weight now plan) :
    (s.write plan).ballots ≠ s.ballots := by
  intro he
  have hsame : plan.current = plan.prior := by
    have hb := s.ballot?_write plan p voter
    rw [hp.ballot_proposal, hp.ballot_voter, if_pos ⟨rfl, rfl⟩] at hb
    rw [hp.prior_eq, ← hb]
    unfold ballot?
    rw [he]
  have hch := requireChange_eq_ok_iff.1 hp.changes
  unfold VotePlan.current at hsame
  split at hsame
  · exact hch.2 _ hsame.symm ⟨rfl, rfl⟩
  · next hw =>
    have hnonneg := hp.weight_nonneg
    have hne := hch.1 hsame.symm
    omega

/-- Of what the notice of a vote is written with, nothing bounds the id of its proposal alone. -/
theorem Planned.isWritable_notice (hp : Planned s spendable p voter aye weight now plan)
    (h : s.Orderly) : plan.notice.Writable ↔ Value.isWritable p = true := by
  have htally := (hp.tally_inRange (h.proposals hp.proposal_eq).tally).isWritable
  have hweight := isWritable_weight hp.weight_nonneg hp.weight_le
  have hreleased : Value.isWritable (priorCost plan.prior) = true := by
    rw [hp.prior_eq]
    cases hb : s.ballot? p voter with
    | none => decide
    | some b => exact (h.ballots hb).isWritable
  unfold VotePlan.notice
  split
  · simp [Log.Notice.Writable, Log.Notice.integers, hp.ballot_proposal, hweight, htally,
      Ballot.locked]
  · simp [Log.Notice.Writable, Log.Notice.integers, hp.ballot_proposal, hreleased, htally]

theorem Planned.isWritable_notices (hp : Planned s spendable p voter aye weight now plan)
    (h : s.Orderly) : (∀ n ∈ plan.notice :: plan.closingNotices, n.Writable) ↔
      Value.isWritable p = true := by
  have hx := h.proposals hp.proposal_eq
  have htally := (hp.tally_inRange hx.tally).isWritable
  have hclosing : Value.isWritable p = true → ∀ n ∈ plan.closingNotices, n.Writable := by
    intro hw n hn
    unfold VotePlan.closingNotices at hn
    split at hn
    · rw [List.mem_singleton.1 hn]
      simp [Log.Notice.Writable, Log.Notice.integers, hx.id_eq, hw, htally]
    · cases hn
  rw [List.forall_mem_cons, hp.isWritable_notice h]
  exact ⟨fun hw => hw.1, fun hw => ⟨hw, hclosing hw⟩⟩

end Assembly

namespace Chamber

section Funds

variable {σ : Type} [FundLock σ] {c c' : Chamber σ} {call : Call}

/-! ### Changes and what is told of them -/

/-- The integers in the notices of a call that nothing bounds. -/
def numbers (c : Chamber σ) : Call → List Int
  | .registerVoter .. | .unregisterVoter .. => []
  | .createProposal _ d => [c.assembly.nextId, d.start, d.stop]
  | .cancelProposal _ p | .setAccountList _ p _ | .vote _ p .. | .closeProposal _ p
  | .claim _ p => [p]

theorem Change.writable_iff {events : List Event} {notices : List Log.Notice} {a : Answer}
    (hc : c.Change call c' events notices a) (h : c.assembly.Orderly) :
    (∀ n ∈ notices, n.Writable) ↔ ∀ k ∈ c.numbers call, Value.isWritable k = true := by
  cases hc with
  | registered | unregistered => simp [numbers, Log.Notice.Writable, Log.Notice.integers]
  | created ho hx =>
    obtain ⟨-, data, accounts, kind, -, -, -, -, rfl⟩ := Assembly.draftProposal_eq_ok_iff.1 hx
    simp [numbers, Log.Notice.Writable, Log.Notice.integers]
  | cancelled hx => simp [numbers, Log.Notice.Writable, Log.Notice.integers]
  | listed hx hl =>
    have hf := h.proposals (checkEditor_eq_ok_iff.1 hx).1
    simp [numbers, Log.Notice.Writable, Log.Notice.integers, hf.id_eq]
  | closed hx hc =>
    have hf := h.proposals (Assembly.checkClose_eq_ok_iff.1 hx).1
    simp [numbers, Log.Notice.Writable, Log.Notice.integers, hf.id_eq, hf.tally.isWritable]
  | voted ho hp hf =>
    have hplan := Assembly.planVote_eq_ok_iff.1 hp
    rw [hplan.isWritable_notices h]
    simp [numbers]
  | claimed ho hb hf =>
    have hlive := h.ballots (checkClaim_eq_ok_iff.1 hb).2.2
    simp [numbers, Log.Notice.Writable, Log.Notice.integers, hlive.isWritable]

/-- What a vote does halfway is part of a change that cannot be told, with all that it does to the
funds. -/
theorem Halfway.exists_change (hh : c.Halfway call c') :
    ∃ c₁ events notices a, c.Change call c₁ events notices a ∧
      (¬ ∀ n ∈ notices, n.Writable) ∧ c'.funds = c₁.funds ∧ c₁.assembly ≠ c.assembly ∧
      c'.assembly ≠ c.assembly := by
  cases hh with
  | vote ho hp hf hn hcl =>
    have hne := (Assembly.planVote_eq_ok_iff.1 hp).write_ne
    refine ⟨_, _, _, _, .voted ho hp hf, fun h => hn (h _ List.mem_cons_self), rfl,
      fun he => hne ?_, fun he => hne (congrArg Assembly.ballots he)⟩
    exact (Assembly.ballots_carry ..).symm.trans (congrArg Assembly.ballots he)

/-! ### All or nothing -/

/-- Whatever a call would change, it can tell. -/
def Tellable (c : Chamber σ) (call : Call) : Prop :=
  ∀ c' events notices a, c.Change call c' events notices a → c'.assembly ≠ c.assembly →
    ∀ k ∈ c.numbers call, Value.isWritable k = true

theorem perform_atomic_iff [Host] (h : c.assembly.Orderly) (call : Call) :
    (∀ f, (c.perform call).result = .error f → (c.perform call).state.assembly = c.assembly) ↔
      c.Tellable call := by
  constructor
  · intro hatomic c' events notices a hc hne
    rw [← hc.writable_iff h]
    cases c.perform_course call with
    | refused hx hr hs => cases hx.symm.trans hc.checks_eq_ok
    | quiet hq hr hs | muted hq hr hs => exact absurd hq hc.not_quiet
    | unfunded hu hr hs => exact absurd hu hc.not_unfunded
    | done hc' hn hr hs => exact (hc.unique hc').2.2.1 ▸ hn
    | untold hc' hn hr hs =>
      have hsame := hatomic _ hr
      rw [hs, ← (hc.unique hc').1] at hsame
      exact absurd hsame hne
    | halfway hh hr hs =>
      obtain ⟨-, -, -, -, -, -, -, -, hne'⟩ := hh.exists_change
      exact absurd (hs ▸ hatomic _ hr) hne'
  · intro htell f hf
    cases c.perform_course call with
    | refused hx hr hs | muted hq hr hs => rw [hs]
    | unfunded hu hr hs =>
      rw [hs]
      rfl
    | quiet hq hr hs | done hc hn hr hs =>
      rw [hr] at hf
      cases hf
    | untold hc hn hr hs =>
      rw [hs]
      by_contra hne
      exact hn ((hc.writable_iff h).2 (htell _ _ _ _ hc hne))
    | halfway hh hr hs =>
      obtain ⟨_, _, _, _, hc, hn, -, hne, -⟩ := hh.exists_change
      exact absurd ((hc.writable_iff h).2 (htell _ _ _ _ hc hne)) hn

theorem Change.eq_of_assembly_eq {events : List Event} {notices : List Log.Notice} {a : Answer}
    (hc : c.Change call c' events notices a) (he : c'.assembly = c.assembly) : c' = c := by
  cases hc with
  | registered | unregistered | created | cancelled | listed | closed =>
    exact congrArg c.withAssembly he
  | voted ho hp hf =>
    refine absurd ?_ (Assembly.planVote_eq_ok_iff.1 hp).write_ne
    exact (Assembly.ballots_carry ..).symm.trans (congrArg Assembly.ballots he)
  | @claimed o p voter b ho hb hf =>
    have hgone := (c.assembly.ballot?_dropBallot p voter p voter).trans (if_pos ⟨rfl, rfl⟩)
    have hlive := (checkClaim_eq_ok_iff.1 hb).2.2
    rw [← he] at hlive
    cases hlive.symm.trans hgone

end Funds

/-! ### All or nothing with a ledger -/

variable {c : Chamber Ledger}

theorem perform_eq_of_assembly_eq [Host] (h : c.Regular) {call : Call} {f : Fault}
    (hf : (c.perform call).result = .error f)
    (he : (c.perform call).state.assembly = c.assembly) : (c.perform call).state = c := by
  cases c.perform_course call with
  | refused hx hr hs | muted hq hr hs => exact hs
  | unfunded hu hr hs => exact hs.trans (hu.withFunds_eq h)
  | quiet hq hr hs | done hc hn hr hs =>
    rw [hr] at hf
    cases hf
  | untold hc hn hr hs =>
    rw [hs] at he ⊢
    exact hc.eq_of_assembly_eq he
  | halfway hh hr hs =>
    obtain ⟨-, -, -, -, -, -, -, -, hne⟩ := hh.exists_change
    exact absurd (hs ▸ he) hne

theorem perform_restores_iff [Host] (h : c.Regular) (call : Call) :
    (∀ f, (c.perform call).result = .error f → (c.perform call).state = c) ↔
      c.Tellable call := by
  rw [← perform_atomic_iff h.orderly]
  constructor
  · intro hstate f hf
    rw [hstate f hf]
  · intro hassembly f hf
    exact perform_eq_of_assembly_eq h hf (hassembly f hf)

/-- With any funds, and whatever the host does to them between calls, a failed call leaves the
assembly as it was if and only if whatever it would change can be told. With a ledger, on which
the host mints, locks and unlocks as it likes, the same holds of the whole chamber. -/
theorem reachable_atomic_iff [Host] (limits : Limits) (clock : Clock) (call : Call) :
    (∀ {σ : Type} [FundLock σ] (c : Chamber σ), c.Reachable limits clock →
      ((∀ f, (c.perform call).result = .error f →
        (c.perform call).state.assembly = c.assembly) ↔ c.Tellable call)) ∧
      ∀ (symbol : Text) (opening : List (Account × Int)) (steps : List LedgerStep),
        let c := (Chamber.empty limits clock (Ledger.create symbol opening).state).ledgerRun steps
        (∀ f, (c.perform call).result = .error f → (c.perform call).state = c) ↔
          c.Tellable call := by
  refine ⟨fun c h => perform_atomic_iff h.orderly call, fun symbol opening steps => ?_⟩
  have hstart := Regular.empty limits clock symbol opening
  exact perform_restores_iff (ledgerRun_regular hstart steps) call

/-- Funds that deny the lock of a vote: the vote fails, and the assembly stays as it was. -/
theorem reachable_atomic_iff_denied :
    let start := Chamber.empty .standard .zero (⟨10, true, []⟩ : HostFunds)
    let c := start.run [
      .call (.registerVoter .root Round.ann),
      .call (.createProposal ⟨Round.ann, false⟩ ⟨.bytes [], .kind .publicVote, .none, 1, 101⟩),
      .advance 1]
    let r := c.perform (.vote ⟨Round.ann, false⟩ 0 (.bool true) (.int 3))
    c.Reachable .standard .zero ∧ r.result = .error (.foreign .insufficientFunds "lock denied") ∧
      r.state.assembly = c.assembly := by
  intro start c r
  have hreach : c.Reachable .standard .zero := (Reachable.start _).run _
  have htell : c.Tellable (.vote ⟨Round.ann, false⟩ 0 (.bool true) (.int 3)) := by
    intro c' events notices a hc hne k hk
    rw [List.mem_singleton.1 hk]
    decide
  have hr : r.result = .error (.foreign .insufficientFunds "lock denied") := by decide
  have hiff := (reachable_atomic_iff .standard .zero
    (.vote ⟨Round.ann, false⟩ 0 (.bool true) (.int 3))).1 c hreach
  exact ⟨hreach, hr, hiff.2 htell _ hr⟩

/-- Limits under which the last block of a proposal can be too large to be written. -/
def wideLimits : Limits := ⟨150, 1000, Value.writtenBound, 1, 100, by decide, by decide⟩

/-- A proposal whose last block cannot be written: the call fails, and yet the proposal is stored
and its id is used up. -/
theorem create_stores_and_fails :
    let start := Chamber.empty wideLimits .zero (Ledger.create Round.symbol []).state
    let c := start.ledgerRun [.step (.call (.registerVoter .root Round.ann))]
    let r := c.perform (.createProposal ⟨Round.ann, false⟩
      ⟨.bytes [], .kind .publicVote, .none, 0, Value.writtenBound⟩)
    r.result = .error (.excess .integer) ∧
      c.assembly.proposals.keys = [] ∧ r.state.assembly.proposals.keys = [0] ∧
      c.assembly.nextId = 0 ∧ r.state.assembly.nextId = 1 := by
  decide +kernel

end Chamber

end QuadraticVoting
