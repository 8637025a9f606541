import QuadraticVoting.Proofs.Closures
import QuadraticVoting.Proofs.Lineage

/-!
# Majorities

A private proposal is closed by the vote that gives it a majority, whichever way it does: an aye
cast or raised, or a nay lowered, turned or withdrawn. So an open private proposal never has one
(`Assembly.Decisive`), which leaves a call to close it nothing but to reject it. A public proposal
is never closed by a vote (`perform_vote_closes_iff`).

On an id too large to be written (`Reachable.isWritable`), a vote fails after it has been counted
and before it closes anything, and a majority could stand open.
-/

namespace QuadraticVoting

namespace Assembly

/-- An open private proposal has no majority, and the journal calls a private proposal closed by a
vote if and only if it passed, and a public one never. -/
structure Decisive (s : Assembly) (p : Int) : Prop where
  of_open : Value.isWritable p = true → ∀ {x}, s.proposal? p = some x → x.isClosed = false →
    x.kind = .privateVote → x.tally.hasMajority = false
  of_told : ∀ {t approved auto}, .proposalClosed p t approved auto ∈ s.journal →
    ∃ x, s.closed? p = some x ∧
      auto = (decide (x.kind = .privateVote) && x.tally.hasMajority) ∧
      approved = x.tally.hasMajority

theorem hasMajority_draftProposal {s : Assembly} {creator : Account} {d : Draft} {now : Int}
    {x : Proposal} (hx : s.draftProposal creator d now = .ok x) : x.tally.hasMajority = false := by
  obtain ⟨-, data, accounts, kind, -, -, -, -, rfl⟩ := draftProposal_eq_ok_iff.1 hx
  rfl

/-- A vote that is carried out leaves its proposal closed if and only if it is private and has a
majority now. -/
theorem Planned.exists_carried {s : Assembly} {spendable : Account → Int} {p : Int}
    {voter : Account} {aye : Bool} {weight : Value} {now : Int} {plan : VotePlan}
    (hp : Planned s spendable p voter aye weight now plan) :
    ∃ y, (s.carry plan).proposal? p = some y ∧ y.kind = plan.proposal.kind ∧
      (y.isClosed = true ↔ plan.proposal.kind = .privateVote ∧ y.tally.hasMajority = true) := by
  have hself := s.proposal?_carry_self plan
  rw [hp.ballot_proposal] at hself
  refine ⟨_, hself, ?_⟩
  cases hcl : plan.closes with
  | true =>
    have hboth := Bool.and_eq_true_iff.1 hcl
    exact ⟨rfl, fun _ => ⟨of_decide_eq_true hboth.1, hboth.2⟩, fun _ => rfl⟩
  | false =>
    refine ⟨rfl, fun hclosed => ?_, fun ⟨hk, hmajority⟩ => ?_⟩
    · cases hp.is_open.symm.trans hclosed
    · have hcloses : plan.closes = true := Bool.and_eq_true_iff.2 ⟨decide_eq_true hk, hmajority⟩
      cases hcl.symm.trans hcloses

end Assembly

namespace Chamber

variable {σ : Type} [FundLock σ] {c c' : Chamber σ} {call : Call} {events : List Event}
  {notices : List Log.Notice} {a : Answer} {p : Int} {x : Proposal}

/-! ### Calls -/

/-- What a call leaves open is without a majority if it is private. -/
theorem Edit.undecided {after : Option Proposal} (he : c.Edit p after call)
    (h : c.assembly.Orderly) (hp : Value.isWritable p = true)
    (hd : ∀ {y}, c.assembly.proposal? p = some y → y.isClosed = false →
      y.kind = .privateVote → y.tally.hasMajority = false)
    (hx : after = some x) (ho : x.isClosed = false) (hk : x.kind = .privateVote) :
    x.tally.hasMajority = false := by
  cases he with
  | kept hsame => exact hd (hsame.symm.trans hx) ho hk
  | created _ _ hdraft hnew =>
    cases hnew.symm.trans hx
    exact Assembly.hasMajority_draftProposal hdraft
  | cancelled _ hgone => cases hgone.symm.trans hx
  | listed hy _ hput =>
    cases hput.symm.trans hx
    have hbefore := hd (checkEditor_eq_ok_iff.1 hy).1
    exact hbefore ho hk
  | closed _ _ hput =>
    cases hput.symm.trans hx
    cases ho
  | counted _ hv hcl hput =>
    cases hput.symm.trans hx
    -- The vote has found no majority, or it would have closed the proposal.
    have hopen := hcl.resolve_right (not_not.2 ((hv.isWritable_notice h).2 hp))
    exact (Bool.and_eq_false_iff.1 hopen).resolve_left fun hpublic => of_decide_eq_false hpublic hk
  | decided _ _ _ hput =>
    cases hput.symm.trans hx
    cases ho

theorem Change.decided (hc : c.Change call c' events notices a)
    (hd : ∀ {y}, c.assembly.proposal? p = some y → y.isClosed = false →
      y.kind = .privateVote → y.tally.hasMajority = false)
    {t : Tally} {approved auto : Bool} (he : .proposalClosed p t approved auto ∈ events) :
    ∃ x, c'.assembly.closed? p = some x ∧
      auto = (decide (x.kind = .privateVote) && x.tally.hasMajority) ∧
      approved = x.tally.hasMajority := by
  cases hc with
  | registered | unregistered | created | cancelled | listed | claimed =>
    cases List.mem_singleton.1 he
  | @closed o q x hx ho =>
    cases List.mem_singleton.1 he
    have hput := c.assembly.proposal?_putProposal p p { x with status := .closed }
    refine ⟨_, Assembly.closed?_eq_some_iff.2 ⟨hput.trans (if_pos rfl), rfl⟩, ?_, rfl⟩
    show false = (decide (x.kind = .privateVote) && x.tally.hasMajority)
    by_cases hk : x.kind = .privateVote
    · rw [hd (Assembly.checkClose_eq_ok_iff.1 hx).1 ho hk, Bool.and_false]
    · rw [decide_eq_false hk, Bool.false_and]
  | @voted o q aye weight voter plan ho hv hf =>
    have hself := c.assembly.proposal?_carry_self plan
    rw [VotePlan.voteEvents_outcome] at he
    rcases List.mem_cons.1 he with he | he
    · have hvote := plan.closes_event p
      rw [← he] at hvote
      simp [Event.closes] at hvote
    · obtain ⟨hcl, he⟩ := VotePlan.mem_closingEvents_iff.1 he
      cases he
      rw [hcl, if_pos rfl] at hself
      have hmajority : plan.tally.hasMajority = true := (Bool.and_eq_true_iff.1 hcl).2
      exact ⟨_, Assembly.closed?_eq_some_iff.2 ⟨hself, rfl⟩, hcl.symm, hmajority.symm⟩

section AnyHost

variable [Host]

theorem perform_decisive (h : c.assembly.Orderly) (hd : c.assembly.Decisive p) (call : Call) :
    (c.perform call).state.assembly.Decisive p := by
  refine ⟨fun hp _ => (perform_edit h call p).undecided h hp (hd.of_open hp), ?_⟩
  intro t approved auto
  refine perform_told (P := fun s => .proposalClosed p t approved auto ∈ s.journal →
    ∃ x, s.closed? p = some x ∧
      auto = (decide (x.kind = .privateVote) && x.tally.hasMajority) ∧
      approved = x.tally.hasMajority) call hd.of_told ?_ ?_ ?_
  · intro c' events notices a hc hn he
    rcases List.mem_append.1 he with he | he
    · rw [hc.journal] at he
      obtain ⟨x, hx, hauto, happroved⟩ := hd.of_told he
      exact ⟨x, hc.closed?_stays h hx, hauto, happroved⟩
    · have hp : Value.isWritable p = true := by
        rcases hc.proposal?_events he with hcall | ⟨x, hx, -⟩
        · exact hc.isWritable h hn hcall.symm
        · cases hx
      exact hc.decided (hd.of_open hp) he
  · intro c' events notices a hc _ he
    rw [hc.journal] at he
    obtain ⟨x, hx, hauto, happroved⟩ := hd.of_told he
    exact ⟨x, hc.closed?_stays h hx, hauto, happroved⟩
  · intro c' hh he
    rw [hh.journal] at he
    rw [hh.closed?_eq]
    exact hd.of_told he

theorem Reachable.decisive {limits : Limits} {clock : Clock} (h : Reachable limits clock c)
    (p : Int) : c.assembly.Decisive p :=
  h.keeps (P := (·.Decisive p)) (fun _ ho hd call => perform_decisive ho hd call)
    (fun _ _ hd => ⟨hd.of_open, hd.of_told⟩)
    ⟨fun _ {_} hx => (by cases hx), fun {_ _ _} he => (by cases he)⟩

/-! ### Votes and manual closes -/

/-- A vote whose notice fails has been counted, and has closed nothing. -/
theorem perform_vote_of_not_writable {o : Origin} {aye weight : Value} {voter : Account}
    {plan : VotePlan} (ho : o.signer = .ok voter)
    (hv : c.assembly.planVote (FundLock.spendable c.funds) p voter aye.truthy weight
      c.assembly.now = .ok plan)
    (hf : (FundLock.adjust c.funds voter plan.delta).result = .ok ())
    (hn : ¬ plan.notice.Writable) :
    (c.perform (.vote o p aye weight)).result = .error (.excess .integer) ∧
      (c.perform (.vote o p aye weight)).state =
        ⟨c.assembly.write plan, (FundLock.adjust c.funds voter plan.delta).state⟩ := by
  have hm := Assembly.commitVote_of_not_writable (s := c.assembly) hn
  have hw : ((FundLock.adjust c.funds voter plan.delta).within c.withFunds).result = .ok () := hf
  show ((conclude _ _ _ _).map _).result = _ ∧ ((conclude _ _ _ _).map _).state = _
  rw [ho, Reply.check_ok, vote, hv, Reply.check_ok, Reply.andThen_of_ok hw]
  refine ⟨(conclude_of_error _ _ _ _ hm.1).1, (conclude_of_error _ _ _ _ hm.1).2.trans ?_⟩
  exact congrArg (fun s => Chamber.mk s _) hm.2

/-- A vote closes an open proposal if and only if it goes well, the proposal is private, and it then
has a majority. -/
theorem perform_vote_closes_iff (h : c.assembly.Orderly) (hx : c.assembly.proposal? p = some x)
    (ho : x.isClosed = false) (o : Origin) (aye weight : Value) :
    ∃ y, (c.perform (.vote o p aye weight)).state.assembly.proposal? p = some y ∧
      y.kind = x.kind ∧ (y.isClosed = true ↔ x.kind = .privateVote ∧
        (∃ a, (c.perform (.vote o p aye weight)).result = .ok a) ∧ y.tally.hasMajority = true) := by
  -- A call that fails and leaves the proposal open is no close.
  have hnone : ∀ {y : Proposal} {f : Fault}, y.isClosed = false →
      (c.perform (.vote o p aye weight)).result = .error f → (y.isClosed = true ↔
        x.kind = .privateVote ∧ (∃ a, (c.perform (.vote o p aye weight)).result = .ok a) ∧
          y.tally.hasMajority = true) := by
    intro y f hy hr
    rw [hy, hr]
    exact ⟨nofun, fun ⟨_, ⟨_, he⟩, _⟩ => nomatch he⟩
  have hwritten : ∀ {plan : VotePlan}, plan.ballot.proposal = p →
      (c.assembly.write plan).proposal? p = some plan.counted := fun hp =>
    (c.assembly.proposal?_write _ p).trans (if_pos hp.symm)
  cases c.perform_course (.vote o p aye weight) with
  | refused hf hr hs =>
    refine ⟨x, ?_, rfl, hnone ho hr⟩
    rwa [hs]
  | quiet hq hr hs | muted hq hr hs => cases hq
  | unfunded hu hr hs =>
    refine ⟨x, ?_, rfl, hnone ho hr⟩
    rw [hs]
    exact hx
  | done hc hn hr hs =>
    cases hc with
    | @voted o q aye weight voter plan hsign hv hf =>
      have hplan := Assembly.planVote_eq_ok_iff.1 hv
      cases hx.symm.trans hplan.proposal_eq
      obtain ⟨y, hy, hk, hiff⟩ := hplan.exists_carried
      rw [hs, hr]
      refine ⟨y, hy, hk, hiff.trans ?_⟩
      exact and_congr_right fun _ => (and_iff_right ⟨_, rfl⟩).symm
  | untold hc hn hr hs =>
    cases hc with
    | @voted o q aye weight voter plan hsign hv hf =>
      have hplan := Assembly.planVote_eq_ok_iff.1 hv
      have hmute : ¬ plan.notice.Writable := by
        rwa [hplan.isWritable_notice h, ← hplan.isWritable_notices h]
      cases hx.symm.trans hplan.proposal_eq
      have hstate := (perform_vote_of_not_writable hsign hv hf hmute).2
      exact ⟨plan.counted, hstate ▸ hwritten hplan.ballot_proposal, rfl, hnone ho hr⟩
  | halfway hh hr hs =>
    cases hh with
    | @vote o q aye weight voter plan hsign hv hf hn hcl =>
      have hplan := Assembly.planVote_eq_ok_iff.1 hv
      cases hx.symm.trans hplan.proposal_eq
      exact ⟨plan.counted, hs ▸ hwritten hplan.ballot_proposal, rfl, hnone ho hr⟩

theorem perform_close_open (h : c.assembly.Orderly) (hx : c.assembly.proposal? p = some x)
    (ho : x.isClosed = false) (o : Origin) :
    (∀ a, (c.perform (.closeProposal o p)).result = .ok a →
      a = .flag x.tally.hasMajority ∧ Value.isWritable p = true) ∧
      (Assembly.mayManage o x = true → x.stageAt c.assembly.now = .ended →
        Value.isWritable p = true →
          (c.perform (.closeProposal o p)).result = .ok (.flag x.tally.hasMajority)) := by
  refine ⟨fun a ha => ?_, fun hm hs hp => ?_⟩
  · cases c.perform_course (.closeProposal o p) with
    | refused hf hr hs | muted hq hr hs | unfunded hu hr hs | untold hc hn hr hs
    | halfway hh hr hs => cases hr.symm.trans ha
    | quiet hq hr hs =>
      cases hq with
      | closed hy hc =>
        cases hx.symm.trans (Assembly.checkClose_eq_ok_iff.1 hy).1
        cases ho.symm.trans hc
    | done hc hn hr hs =>
      have hp := hc.isWritable h hn (p := p) rfl
      cases hr.symm.trans ha
      cases hc with
      | closed hy hopen =>
        cases hx.symm.trans (Assembly.checkClose_eq_ok_iff.1 hy).1
        exact ⟨rfl, hp⟩
  · have hcheck : c.assembly.checkClose o p c.assembly.now = .ok x :=
      Assembly.checkClose_eq_ok_iff.2 ⟨hx, hm, .inl hs⟩
    have hc := Change.closed hcheck ho
    refine (hc.perform_eq nofun).2 ((hc.writable_iff h).2 ?_)
    exact List.forall_mem_singleton.2 hp

/-- Wherever the host comes to, with any funds and any moves of the clock, an open private proposal
has no majority on an id that can be written, as the first `Value.writtenBound` of them can: a vote
closes it if and only if it goes well and leaves it with one, and a call to close it answers no. No
vote closes a public proposal. So the journal calls a private proposal that is closed passed if and
only if a vote has closed it. -/
theorem reachable_early_close (limits : Limits) (clock : Clock) (h : c.Reachable limits clock)
    (p : Int) :
    (∀ x, c.assembly.proposal? p = some x → x.isClosed = false →
      (x.kind = .privateVote → Value.isWritable p = true → 2 * x.tally.aye ≤ x.tally.total) ∧
      (∀ o aye weight, ∃ y,
        (c.perform (.vote o p aye weight)).state.assembly.proposal? p = some y ∧
          y.kind = x.kind ∧ (y.isClosed = true ↔ x.kind = .privateVote ∧
            (∃ a, (c.perform (.vote o p aye weight)).result = .ok a) ∧
              y.tally.total < 2 * y.tally.aye)) ∧
      (x.kind = .privateVote → ∀ o,
        (∀ a, (c.perform (.closeProposal o p)).result = .ok a → a = .flag false) ∧
        (Assembly.mayManage o x = true → x.stageAt c.assembly.now = .ended →
          Value.isWritable p = true →
            (c.perform (.closeProposal o p)).result = .ok (.flag false)))) ∧
      ∀ t approved auto, .proposalClosed p t approved auto ∈ c.assembly.journal →
        ∃ x, c.assembly.proposal? p = some x ∧ x.isClosed = true ∧
          (x.kind = .privateVote → (approved = true ↔ auto = true)) ∧
          (x.kind = .publicVote → auto = false) := by
  have hd := h.decisive p
  refine ⟨fun x hx ho => ⟨fun hk hp => ?_, fun o aye weight => ?_, fun hk o => ?_⟩, ?_⟩
  · have hnone := hd.of_open hp hx ho hk
    rw [Tally.hasMajority_eq, decide_eq_false_iff_not] at hnone
    omega
  · obtain ⟨y, hy, hk, hiff⟩ := perform_vote_closes_iff h.orderly hx ho o aye weight
    rw [Tally.hasMajority_eq, decide_eq_true_eq] at hiff
    exact ⟨y, hy, hk, hiff⟩
  · have hclose := perform_close_open h.orderly hx ho o
    refine ⟨fun a ha => ?_, fun hm hs hp => ?_⟩
    · obtain ⟨he, hp⟩ := hclose.1 a ha
      rw [he, hd.of_open hp hx ho hk]
    · rw [hclose.2 hm hs hp, hd.of_open hp hx ho hk]
  · intro t approved auto he
    obtain ⟨x, hx, hauto, happroved⟩ := hd.of_told he
    obtain ⟨hstored, hclosed⟩ := Assembly.closed?_eq_some_iff.1 hx
    refine ⟨x, hstored, hclosed, fun hk => ?_, fun hk => ?_⟩
    · rw [hauto, happroved, hk]
      simp
    · rw [hauto, hk]
      rfl

end AnyHost

/-- A power of 9 for and 16 against keep a private proposal open. Once the 16 are withdrawn, it is
closed. -/
theorem reachable_early_close_withdrawn :
    let start := Chamber.empty .standard .zero (⟨20, false, []⟩ : HostFunds)
    let c := start.run [
      .call (.registerVoter .root Round.ann),
      .call (.registerVoter .root Round.bob),
      .call (.createProposal ⟨Round.ann, false⟩
        ⟨.bytes [], .kind .privateVote, .accounts [Round.ann, Round.bob], 1, 101⟩),
      .advance 1,
      .call (.vote ⟨Round.ann, false⟩ 0 (.bool false) (.int 4)),
      .call (.vote ⟨Round.bob, false⟩ 0 (.bool true) (.int 3))]
    let r := c.perform (.vote ⟨Round.ann, false⟩ 0 (.bool false) (.int 0))
    c.Reachable .standard .zero ∧
      (∃ x, c.assembly.proposal? 0 = some x ∧ x.isClosed = false ∧ x.tally = ⟨9, 25⟩ ∧
        2 * x.tally.aye ≤ x.tally.total) ∧
      ∃ y, r.state.assembly.proposal? 0 = some y ∧ y.tally = ⟨9, 9⟩ ∧ y.isClosed = true := by
  intro start c r
  have hreach : c.Reachable .standard .zero := (Reachable.start _).run _
  have hx : c.assembly.proposal? 0 = some ⟨0, Round.ann, [], .privateVote,
    .ofList [Round.ann, Round.bob], 1, 101, .pending, ⟨9, 25⟩⟩ := by decide
  have h := (reachable_early_close .standard .zero hreach 0).1 _ hx rfl
  refine ⟨hreach, ⟨_, hx, rfl, rfl, h.1 rfl (by decide)⟩, ?_⟩
  obtain ⟨y, hy, -, hiff⟩ := h.2.1 ⟨Round.ann, false⟩ (.bool false) (.int 0)
  have hafter : (r.state.assembly.proposal? 0).map Proposal.tally = some ⟨9, 9⟩ := by decide
  have htally : y.tally = ⟨9, 9⟩ := by
    rw [hy] at hafter
    exact Option.some.inj hafter
  have hok : r.result = .ok (.outcome ⟨0, Round.ann, some ⟨0, Round.ann, false, 4⟩, none, -16,
    ⟨9, 9⟩, true⟩) := by decide
  refine ⟨y, hy, htally, hiff.2 ⟨rfl, ⟨_, hok⟩, ?_⟩⟩
  rw [htally]
  decide

end Chamber

end QuadraticVoting
