import QuadraticVoting.Proofs.Later

/-!
# Closures

A proposal is closed by a call to close it or by the vote that gives it a majority. Either way the
journal says so once, with the tally that the proposal then keeps (`Assembly.Recorded`), and from
there on the proposal stays as it is. Closing it again changes nothing (`state_perform_close`) and
gives the same answer (`result_perform_close`).

Under an id too large to be written (`Reachable.isWritable`) a proposal would be closed without
being told, and closing it again would fail.
-/

namespace QuadraticVoting

/-- Whether an event tells that a proposal has been closed. -/
def Event.closes (p : Int) : Event → Bool
  | .proposalClosed q .. => q = p
  | .voterRegistered _ | .voterUnregistered _ | .proposalCreated .. | .proposalCancelled _
  | .accountListSet .. | .voteCast .. | .voteWithdrawn .. | .fundsClaimed .. => false

theorem Tally.hasMajority_eq (t : Tally) : t.hasMajority = decide (t.total < 2 * t.aye) := by
  unfold hasMajority
  exact decide_eq_decide.2 (by omega)

theorem VotePlan.closes_event (plan : VotePlan) (p : Int) : plan.event.closes p = false := by
  unfold event
  split <;> rfl

theorem VotePlan.filter_closes (plan : VotePlan) (p : Int) :
    (Chamber.voteEvents plan.outcome).filter (Event.closes p) =
      if plan.closes = true ∧ plan.ballot.proposal = p then
        [.proposalClosed p plan.tally true true] else [] := by
  rw [voteEvents_outcome, List.filter_cons_of_neg (by simp [plan.closes_event]), closingEvents]
  by_cases hp : plan.ballot.proposal = p <;> cases plan.closes <;> simp [Event.closes, hp]

namespace Assembly

/-- What the events of a journal say of the close of a proposal. -/
def closings (s : Assembly) (p : Int) : List Event := s.journal.filter (Event.closes p)

/-- The journal tells one close of a closed proposal and none of any other. -/
structure Recorded (s : Assembly) (p : Int) : Prop where
  of_open : s.closed? p = none → s.closings p = []
  of_closed : ∀ {x}, s.closed? p = some x → Value.isWritable p = true →
    ∃ auto, s.closings p = [.proposalClosed p x.tally x.tally.hasMajority auto]

theorem closings_append (s : Assembly) (events : List Event) (p : Int) :
    (s.append events).closings p = s.closings p ++ events.filter (Event.closes p) :=
  List.filter_append ..

theorem closings_congr {s s' : Assembly} (h : s'.journal = s.journal) (p : Int) :
    s'.closings p = s.closings p := congrArg (List.filter (Event.closes p)) h

theorem Recorded.congr {s s' : Assembly} {p : Int} (h : s.Recorded p)
    (hc : s'.closed? p = s.closed? p) (hj : s'.closings p = s.closings p) : s'.Recorded p where
  of_open hn := hj.trans (h.of_open (hc.symm.trans hn))
  of_closed hx hp := by
    rw [hj]
    exact h.of_closed (hc.symm.trans hx) hp

end Assembly

namespace Chamber

variable {σ : Type} [FundLock σ] {c c' : Chamber σ} {call : Call} {events : List Event}
  {notices : List Log.Notice} {a : Answer}

/-- A change closes a proposal and tells it, or does neither. -/
theorem Change.closings (hc : c.Change call c' events notices a) (h : c.assembly.Orderly)
    (p : Int) :
    (c'.assembly.closed? p = c.assembly.closed? p ∧ events.filter (Event.closes p) = []) ∨
      (c.assembly.closed? p = none ∧ ∃ x auto, c'.assembly.closed? p = some x ∧
        events.filter (Event.closes p) =
          [.proposalClosed p x.tally x.tally.hasMajority auto]) := by
  have hother : call.proposal? ≠ some p → c'.assembly.closed? p = c.assembly.closed? p :=
    fun hp => (hc.frame h hp).2.1
  cases hc with
  | registered | unregistered | created => exact .inl ⟨hother nofun, rfl⟩
  | @cancelled o q x hx =>
    refine .inl ⟨?_, rfl⟩
    by_cases hq : q = p
    · subst hq
      obtain ⟨hx, -, hpending⟩ := Assembly.checkCancel_eq_ok_iff.1 hx
      rw [Assembly.closed?_of_open hx (Proposal.isPendingAt_iff.1 hpending).1]
      exact congrArg (Option.filter Proposal.isClosed) (OrdMap.get?_erase_self ..)
    · exact hother fun e => hq (Option.some.inj e)
  | @listed o q arg x l hx hl =>
    refine .inl ⟨?_, rfl⟩
    by_cases hq : q = p
    · subst hq
      have hx := (checkEditor_eq_ok_iff.1 hx).1
      have hopen := (Proposal.isPendingAt_iff.1 (Assembly.checkAccountList_eq_ok_iff.1 hl).1).1
      have hput := c.assembly.proposal?_putProposal q q { x with accounts := l }
      rw [Assembly.closed?_of_open hx hopen]
      exact Assembly.closed?_of_open (hput.trans (if_pos rfl)) hopen
    · exact hother fun e => hq (Option.some.inj e)
  | @closed o q x hx ho =>
    by_cases hq : q = p
    · subst hq
      have hx := (Assembly.checkClose_eq_ok_iff.1 hx).1
      have hput := c.assembly.proposal?_putProposal q q { x with status := .closed }
      refine .inr ⟨Assembly.closed?_of_open hx ho, { x with status := .closed }, false, ?_, ?_⟩
      · exact Assembly.closed?_eq_some_iff.2 ⟨hput.trans (if_pos rfl), rfl⟩
      · simp [Event.closes]
    · exact .inl ⟨hother fun e => hq (Option.some.inj e), by simp [Event.closes, hq]⟩
  | @voted o q aye weight voter plan ho hp hf =>
    have hplan := Assembly.planVote_eq_ok_iff.1 hp
    have hself := c.assembly.proposal?_carry_self plan
    rw [plan.filter_closes, hplan.ballot_proposal]
    rw [hplan.ballot_proposal] at hself
    by_cases hq : q = p
    · subst hq
      have hopen := Assembly.closed?_of_open hplan.proposal_eq hplan.is_open
      cases hcl : plan.closes with
      | false =>
        rw [hcl] at hself
        exact .inl ⟨(Assembly.closed?_of_open hself hplan.is_open).trans hopen.symm, rfl⟩
      | true =>
        rw [hcl] at hself
        have hmajority : plan.tally.hasMajority = true := (Bool.and_eq_true_iff.1 hcl).2
        refine .inr ⟨hopen, { plan.counted with status := .closed }, true,
          Assembly.closed?_eq_some_iff.2 ⟨hself, rfl⟩, ?_⟩
        show _ = [Event.proposalClosed q plan.tally plan.tally.hasMajority true]
        rw [hmajority, if_pos ⟨rfl, rfl⟩]
    · exact .inl ⟨hother fun e => hq (Option.some.inj e), if_neg fun e => hq e.2⟩
  | @claimed o q voter b ho hb hf =>
    exact .inl ⟨Assembly.closed?_congr (Assembly.proposal?_dropBallot ..), rfl⟩

section AnyHost

variable [Host]

theorem perform_recorded (h : c.assembly.Orderly) {p : Int} (hr : c.assembly.Recorded p)
    (call : Call) : (c.perform call).state.assembly.Recorded p := by
  refine perform_assembly (P := (·.Recorded p)) call hr ?_ ?_ ?_
  · intro c' events notices a hc
    have hjournal := Assembly.closings_congr hc.journal p
    have happend := Assembly.closings_append c'.assembly events p
    rw [hjournal] at happend
    rcases hc.closings h p with ⟨hsame, hnone⟩ | ⟨hopen, x, auto, hx, hone⟩
    · rw [hnone, List.append_nil] at happend
      exact hr.congr hsame happend
    · rw [hone, hr.of_open hopen] at happend
      refine ⟨fun hn => ?_, fun {y} hy _ => ?_⟩
      · cases hn.symm.trans hx
      · cases hy.symm.trans hx
        exact ⟨auto, happend⟩
  · intro c' events notices a hc hn
    have hjournal := Assembly.closings_congr hc.journal p
    refine ⟨fun hopen => ?_, fun {x} hx hp => ?_⟩
    · rw [hjournal]
      refine hr.of_open ?_
      cases hx : c.assembly.closed? p with
      | none => rfl
      | some x => cases hopen.symm.trans (hc.closed?_stays h hx)
    · rw [hjournal]
      exact hr.of_closed ((hc.eq_of_untold h hn hp).1.symm.trans hx) hp
  · intro c' hh
    exact hr.congr (hh.closed?_eq p) (Assembly.closings_congr hh.journal p)

theorem Reachable.recorded {limits : Limits} {clock : Clock} (h : Reachable limits clock c)
    (p : Int) : c.assembly.Recorded p :=
  h.keeps (P := (·.Recorded p)) (fun _ ho hr call => perform_recorded ho hr call)
    (fun _ _ hr => hr.congr rfl rfl) ⟨fun _ => rfl, fun hx => nomatch hx⟩

theorem state_perform_close {p : Int} {x : Proposal} (hx : c.assembly.closed? p = some x)
    (o : Origin) : (c.perform (.closeProposal o p)).state = c := by
  cases c.perform_course (.closeProposal o p) with
  | refused hf hr hs | quiet hq hr hs | muted hq hr hs => exact hs
  | unfunded hu hr hs => cases hu
  | done hc hn hr hs | untold hc hn hr hs =>
    -- All that can change is that a ballot is claimed.
    obtain ⟨_, he⟩ := hc.eq_claim hx rfl
    cases he
  | halfway hh hr hs => cases hh

/-- Who may close a closed proposal hears what the first close found, if the id can be written. -/
theorem result_perform_close_ite {p : Int} {x : Proposal} (hx : c.assembly.closed? p = some x)
    {o : Origin} (ho : Assembly.mayManage o x = true) :
    (c.perform (.closeProposal o p)).result = if Value.isWritable p then
      .ok (.flag x.tally.hasMajority) else .error (.excess .integer) := by
  obtain ⟨hstored, hclosed⟩ := Assembly.closed?_eq_some_iff.1 hx
  have hcheck : c.assembly.checkClose o p c.assembly.now = .ok x :=
    Assembly.checkClose_eq_ok_iff.2 ⟨hstored, ho, .inr hclosed⟩
  have hw := c.onAssembly_close_of_closed hcheck hclosed
  have hn : (Log.Notice.proposalKnownClosed p).Writable ↔ Value.isWritable p = true :=
    List.forall_mem_singleton
  split
  · next hp =>
    rw [Reply.announce_of_isWritable (hn.2 hp)] at hw
    exact (conclude_of_ok _ _ _ _ (congrArg Reply.result hw)).1
  · next hp =>
    have hr := congrArg Reply.result hw
    rw [Reply.result_announce_of_not_isWritable (hn.not.2 hp)] at hr
    exact (conclude_of_error _ _ _ _ hr).1

theorem result_perform_close {p : Int} {x : Proposal} (hx : c.assembly.closed? p = some x)
    {o : Origin} (ho : Assembly.mayManage o x = true) (hp : Value.isWritable p = true) :
    (c.perform (.closeProposal o p)).result = .ok (.flag x.tally.hasMajority) :=
  (result_perform_close_ite hx ho).trans (if_pos hp)

/-- A closed proposal stays as it is, wherever the host goes from there with calls, with moves of
the clock and with the funds; closing it again changes nothing and answers whether aye has the
majority in its tally. The journal tells one close of it, with that tally and that answer, and no
close of an id under which there is no closed proposal. Telling and answering take an id that can
be written, as the first `Value.writtenBound` of them are. -/
theorem reachable_closed_final (limits : Limits) (clock : Clock) (h : c.Reachable limits clock)
    (p : Int) :
    (∀ x, c.assembly.proposal? p = some x → x.isClosed = true →
      (∀ c', c.Later c' → c'.assembly.proposal? p = some x ∧
        ∀ o, (c'.perform (.closeProposal o p)).state = c' ∧
          (Assembly.mayManage o x = true → Value.isWritable p = true →
            (c'.perform (.closeProposal o p)).result =
              .ok (.flag (decide (x.tally.total < 2 * x.tally.aye))))) ∧
      (Value.isWritable p = true → ∃ auto, c.assembly.journal.filter (Event.closes p) =
        [.proposalClosed p x.tally (decide (x.tally.total < 2 * x.tally.aye)) auto])) ∧
      ((∀ x, c.assembly.proposal? p = some x → x.isClosed = false) →
        c.assembly.journal.filter (Event.closes p) = []) := by
  have hrecorded := h.recorded p
  refine ⟨fun x hx hc => ?_, fun ho => hrecorded.of_open (Assembly.closed?_eq_none_iff.2 ho)⟩
  have hclosed := Assembly.closed?_eq_some_iff.2 ⟨hx, hc⟩
  rw [← Tally.hasMajority_eq]
  refine ⟨fun c' hc' => ?_, hrecorded.of_closed hclosed⟩
  have hstays := hc'.closed?_stays h.orderly hclosed
  exact ⟨(Assembly.closed?_eq_some_iff.1 hstays).1, fun o =>
    ⟨state_perform_close hstays o, result_perform_close hstays⟩⟩

end AnyHost

/-- A private proposal that its first vote closes, looked at again after the clock has been set
back to before its start. -/
theorem reachable_closed_final_decided :
    let start := Chamber.empty .standard .zero (⟨10, false, []⟩ : HostFunds)
    let c := start.run [
      .call (.registerVoter .root Round.ann),
      .call (.createProposal ⟨Round.ann, false⟩
        ⟨.bytes [], .kind .privateVote, .accounts [Round.ann], 1, 101⟩),
      .advance 1,
      .call (.vote ⟨Round.ann, false⟩ 0 (.bool true) (.int 3))]
    let c' := (c.step (.setBlock 0)).state
    c.Reachable .standard .zero ∧
      (∃ auto, c.assembly.journal.filter (Event.closes 0) =
        [.proposalClosed 0 ⟨9, 9⟩ true auto]) ∧
      (c'.perform (.closeProposal .root 0)).state = c' ∧
      (c'.perform (.closeProposal .root 0)).result = .ok (.flag true) := by
  intro start c c'
  have hreach : c.Reachable .standard .zero := (Reachable.start _).run _
  have hx : c.assembly.proposal? 0 = some ⟨0, Round.ann, [], .privateVote, .ofList [Round.ann], 1,
    101, .closed, ⟨9, 9⟩⟩ := by decide
  have h := (reachable_closed_final .standard .zero hreach 0).1 _ hx rfl
  have hagain := (h.1 c' (.step .refl _)).2 .root
  exact ⟨hreach, h.2 (by decide), hagain.1, hagain.2 rfl (by decide)⟩

end Chamber

end QuadraticVoting
