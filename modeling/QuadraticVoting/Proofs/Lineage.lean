import QuadraticVoting.Proofs.Later

/-!
# The lineage of a proposal

Calls give a proposal another account list, another tally and, in the end, another status. Whose it
is, what it is about, its kind and its window stay, and once it is closed all of it does
(`Proposal.Continues`). Ids are handed out once, so what is stored under an id later on continues
what was stored there before (`Later.continues`).

`c.Onward c'` is `c.Later c'` with a clock that no step moves back. While it is so, the stage of a
proposal never goes back either (`Onward.stageAt_le`).
-/

namespace QuadraticVoting

/-- What calls can have made of a proposal. -/
structure Proposal.Continues (x y : Proposal) : Prop where
  id_eq : y.id = x.id
  creator_eq : y.creator = x.creator
  data_eq : y.data = x.data
  kind_eq : y.kind = x.kind
  start_eq : y.start = x.start
  stop_eq : y.stop = x.stop
  eq_of_closed : x.isClosed = true → y = x

namespace Proposal.Continues

variable {x y z : Proposal}

theorem refl (x : Proposal) : x.Continues x := ⟨rfl, rfl, rfl, rfl, rfl, rfl, fun _ => rfl⟩

theorem trans (h : x.Continues y) (h' : y.Continues z) : x.Continues z where
  id_eq := h'.id_eq.trans h.id_eq
  creator_eq := h'.creator_eq.trans h.creator_eq
  data_eq := h'.data_eq.trans h.data_eq
  kind_eq := h'.kind_eq.trans h.kind_eq
  start_eq := h'.start_eq.trans h.start_eq
  stop_eq := h'.stop_eq.trans h.stop_eq
  eq_of_closed hx := by
    have hy := h.eq_of_closed hx
    exact (h'.eq_of_closed (hy ▸ hx)).trans hy

theorem of_open (ho : x.isClosed = false) (accounts : AccountList) (status : Stage)
    (tally : Tally) : x.Continues { x with accounts, status, tally } :=
  ⟨rfl, rfl, rfl, rfl, rfl, rfl, fun hc => by cases ho.symm.trans hc⟩

theorem stageAt_le (h : x.Continues y) {now later : Int} (hn : now ≤ later) :
    x.stageAt now ≤ y.stageAt later := by
  have hclock := x.stageAt_mono hn
  cases hy : y.isClosed with
  | true =>
    rw [y.stageAt_of_isClosed hy]
    show (x.stageAt now).rank ≤ 3
    cases x.stageAt now <;> decide
  | false =>
    have hx : x.isClosed = false := by
      by_contra hc
      have hx := eq_true_of_ne_false hc
      rw [h.eq_of_closed hx, hx] at hy
      cases hy
    have hsame : y.stageAt later = x.stageAt later := by
      unfold stageAt
      rw [hx, hy, h.start_eq, h.stop_eq]
    rwa [hsame]

end Proposal.Continues

namespace VotePlan

theorem proposal?_event (plan : VotePlan) :
    plan.event.proposal? = some plan.ballot.proposal := by
  unfold event
  split <;> rfl

theorem proposal?_closingEvents (plan : VotePlan) :
    ∀ e ∈ plan.closingEvents, e.proposal? = some plan.ballot.proposal := by
  intro e he
  rw [(mem_closingEvents_iff.1 he).2]
  rfl

end VotePlan

/-- Whether a call is to create a proposal. -/
def Call.creates : Call → Bool
  | createProposal .. => true
  | registerVoter .. | unregisterVoter .. | cancelProposal .. | setAccountList .. | vote ..
  | closeProposal .. | claim .. => false

/-- Whether a step leaves the clock or moves it on, whatever the block height is. -/
def Step.onward : Step → Bool
  | call _ | advance _ => true
  | setBlock _ => false

namespace Chamber

variable {σ : Type} [FundLock σ] {c c' : Chamber σ} {call : Call} {events : List Event}
  {notices : List Log.Notice} {a : Answer} {p : Int} {x y : Proposal}

/-! ### Ids and events -/

theorem Change.isWritable_nextId (hc : c.Change call c' events notices a) (h : c.assembly.Orderly)
    (hn : ∀ n ∈ notices, n.Writable) (hcall : call.creates = true) :
    Value.isWritable c.assembly.nextId = true := by
  cases call with
  | createProposal o d => exact (hc.writable_iff h).1 hn _ List.mem_cons_self
  | registerVoter | unregisterVoter | cancelProposal | setAccountList | vote | closeProposal
  | claim => cases hcall

theorem Change.nextId_eq (hc : c.Change call c' events notices a) :
    c'.assembly.nextId = c.assembly.nextId + if call.creates then 1 else 0 := by
  cases hc with
  | registered | unregistered | cancelled | listed | closed => exact (Int.add_zero _).symm
  | created => rfl
  | voted =>
    rw [Assembly.carry_eq]
    exact (Int.add_zero _).symm
  | claimed =>
    rw [Assembly.nextId_dropBallot]
    exact (Int.add_zero _).symm

theorem Change.proposal?_events (hc : c.Change call c' events notices a) {e : Event}
    (he : e ∈ events) : e.proposal? = call.proposal? ∨
      ∃ x, e = creationEvent x ∧ x.id = c.assembly.nextId := by
  cases hc with
  | registered | unregistered | cancelled | listed | closed | claimed =>
    rw [List.mem_singleton.1 he]
    exact .inl rfl
  | created ho hx =>
    obtain ⟨-, data, accounts, kind, -, -, -, -, rfl⟩ := Assembly.draftProposal_eq_ok_iff.1 hx
    exact .inr ⟨_, List.mem_singleton.1 he, rfl⟩
  | @voted o q aye weight voter plan ho hv hf =>
    left
    show e.proposal? = some q
    rw [← (Assembly.planVote_eq_ok_iff.1 hv).ballot_proposal]
    rw [VotePlan.voteEvents_outcome] at he
    rcases List.mem_cons.1 he with rfl | he
    · exact plan.proposal?_event
    · exact plan.proposal?_closingEvents e he

/-! ### Proposals -/

/-- What a call may find and leave under an id, whichever way it goes. A vote whose notice fails is
counted and closes nothing. -/
inductive Edit (c : Chamber σ) (p : Int) (after : Option Proposal) : Call → Prop
  | kept {call : Call} (hy : after = c.assembly.proposal? p) : Edit c p after call
  | created {o : Origin} {d : Draft} {creator : Account} {x : Proposal}
      (hp : p = c.assembly.nextId) (ho : o.signer = .ok creator)
      (hx : c.assembly.draftProposal creator d c.assembly.now = .ok x)
      (hy : after = some x) : Edit c p after (.createProposal o d)
  | cancelled {o : Origin} {x : Proposal}
      (hx : c.assembly.checkCancel o p c.assembly.now = .ok x) (hy : after = none) :
      Edit c p after (.cancelProposal o p)
  | listed {o : Origin} {arg : ListArg} {x : Proposal} {l : AccountList}
      (hx : checkEditor c.assembly o p = .ok x)
      (hl : c.assembly.checkAccountList x arg c.assembly.now = .ok l)
      (hy : after = some { x with accounts := l }) : Edit c p after (.setAccountList o p arg)
  | closed {o : Origin} {x : Proposal} (hx : c.assembly.checkClose o p c.assembly.now = .ok x)
      (ho : x.isClosed = false) (hy : after = some { x with status := .closed }) :
      Edit c p after (.closeProposal o p)
  | counted {o : Origin} {aye weight : Value} {voter : Account} {plan : VotePlan}
      (ho : o.signer = .ok voter)
      (hp : c.assembly.Planned (FundLock.spendable c.funds) p voter aye.truthy weight
        c.assembly.now plan)
      (hcl : plan.closes = false ∨ ¬ plan.notice.Writable)
      (hy : after = some plan.counted) : Edit c p after (.vote o p aye weight)
  | decided {o : Origin} {aye weight : Value} {voter : Account} {plan : VotePlan}
      (ho : o.signer = .ok voter)
      (hp : c.assembly.Planned (FundLock.spendable c.funds) p voter aye.truthy weight
        c.assembly.now plan)
      (hcl : plan.closes = true)
      (hy : after = some { plan.counted with status := .closed }) :
      Edit c p after (.vote o p aye weight)

/-- Under an id that has not been handed out, a change leaves nothing but a new proposal. -/
theorem Change.edit_of_le (hc : c.Change call c' events notices a) (h : c.assembly.Orderly)
    (hp : c.assembly.nextId ≤ p) : c.Edit p (c'.assembly.proposal? p) call := by
  cases hy : c'.assembly.proposal? p with
  | none => exact .kept (h.proposal?_of_le hp).symm
  | some y =>
    have hissued := ((hc.orderly h).proposals hy).issued
    rw [hc.nextId_eq] at hissued
    cases hc with
    | created ho hx =>
      have hlast : p = c.assembly.nextId := by
        have : p < c.assembly.nextId + 1 := hissued
        omega
      have hdraft := hx
      obtain ⟨-, data, accounts, kind, -, -, -, -, rfl⟩ := Assembly.draftProposal_eq_ok_iff.1 hx
      cases ((c.assembly.proposal?_insert _ _ p).trans (if_pos hlast)).symm.trans hy
      exact .created hlast ho hdraft rfl
    | registered | unregistered | cancelled | listed | closed | voted | claimed =>
      have : p < c.assembly.nextId + 0 := hissued
      omega

theorem Change.edit (hc : c.Change call c' events notices a) (h : c.assembly.Orderly) (p : Int) :
    c.Edit p (c'.assembly.proposal? p) call := by
  by_cases hcall : call.proposal? = some p
  · cases hc with
    | registered | unregistered | created => cases hcall
    | cancelled hx =>
      cases hcall
      exact .cancelled hx (OrdMap.get?_erase_self ..)
    | listed hx hl =>
      cases hcall
      exact .listed hx hl ((c.assembly.proposal?_putProposal ..).trans (if_pos rfl))
    | closed hx ho =>
      cases hcall
      exact .closed hx ho ((c.assembly.proposal?_putProposal ..).trans (if_pos rfl))
    | @voted o q aye weight voter plan ho hp hf =>
      cases hcall
      have hplan := Assembly.planVote_eq_ok_iff.1 hp
      have hself := c.assembly.proposal?_carry_self plan
      rw [hplan.ballot_proposal] at hself
      cases hcl : plan.closes with
      | true =>
        rw [hcl] at hself
        exact .decided ho hplan hcl hself
      | false =>
        rw [hcl] at hself
        exact .counted ho hplan (.inl hcl) hself
    | claimed => exact .kept (Assembly.proposal?_dropBallot ..)
  · rcases Int.lt_or_le p c.assembly.nextId with hp | hp
    · exact .kept ((hc.frame h hcall).1 (Int.ne_of_lt hp))
    · exact hc.edit_of_le h hp

theorem Halfway.edit (hh : c.Halfway call c') (p : Int) :
    c.Edit p (c'.assembly.proposal? p) call := by
  by_cases hcall : call.proposal? = some p
  · cases hh with
    | @vote o q aye weight voter plan ho hp hf hn hcl =>
      cases hcall
      have hplan := Assembly.planVote_eq_ok_iff.1 hp
      have hself := (c.assembly.proposal?_write plan p).trans (if_pos hplan.ballot_proposal.symm)
      exact .counted ho hplan (.inr hn) hself
  · exact .kept (hh.frame hcall).1

theorem perform_edit [Host] (h : c.assembly.Orderly) (call : Call) (p : Int) :
    c.Edit p ((c.perform call).state.assembly.proposal? p) call := by
  refine perform_assembly (P := fun s => c.Edit p (s.proposal? p) call) call (.kept rfl) ?_ ?_ ?_
  · exact fun hc => hc.edit h p
  · exact fun hc _ => hc.edit h p
  · exact fun hh => hh.edit p

/-- What a call leaves under an id continues the proposal it finds there, or is new. -/
theorem Edit.lineage {after : Option Proposal} (he : c.Edit p after call) (hy : after = some y) :
    (∃ x, c.assembly.proposal? p = some x ∧ x.Continues y) ∨
      (p = c.assembly.nextId ∧ ∃ o d creator, call = .createProposal o d ∧
        o.signer = .ok creator ∧ c.assembly.draftProposal creator d c.assembly.now = .ok y) := by
  cases he with
  | kept hsame => exact .inl ⟨y, hsame.symm.trans hy, .refl y⟩
  | created hp ho hx hnew =>
    cases hnew.symm.trans hy
    exact .inr ⟨hp, _, _, _, rfl, ho, hx⟩
  | cancelled hx hn => cases hn.symm.trans hy
  | @listed o arg x l hx hl hput =>
    cases hput.symm.trans hy
    have hopen := (Proposal.isPendingAt_iff.1 (Assembly.checkAccountList_eq_ok_iff.1 hl).1).1
    exact .inl ⟨x, (checkEditor_eq_ok_iff.1 hx).1, .of_open hopen l x.status x.tally⟩
  | @closed o x hx ho hput =>
    cases hput.symm.trans hy
    have hstored := (Assembly.checkClose_eq_ok_iff.1 hx).1
    exact .inl ⟨x, hstored, .of_open ho x.accounts .closed x.tally⟩
  | @counted o aye weight voter plan ho hp hcl hput =>
    cases hput.symm.trans hy
    exact .inl ⟨plan.proposal, hp.proposal_eq,
      .of_open hp.is_open plan.proposal.accounts plan.proposal.status plan.tally⟩
  | @decided o aye weight voter plan ho hp hcl hput =>
    cases hput.symm.trans hy
    exact .inl ⟨plan.proposal, hp.proposal_eq,
      .of_open hp.is_open plan.proposal.accounts .closed plan.tally⟩

variable [Host]

theorem perform_continues (h : c.assembly.Orderly) (hp : p < c.assembly.nextId) (call : Call)
    (hy : (c.perform call).state.assembly.proposal? p = some y) :
    ∃ x, c.assembly.proposal? p = some x ∧ x.Continues y :=
  ((perform_edit h call p).lineage hy).resolve_right fun hnew => Int.ne_of_lt hp hnew.1

theorem perform_nextId_le (c : Chamber σ) (call : Call) :
    c.assembly.nextId ≤ (c.perform call).state.assembly.nextId := by
  refine perform_assembly (P := fun s => c.assembly.nextId ≤ s.nextId) call ?_ ?_ ?_ ?_
  · exact Int.le_refl _
  · exact fun hc => hc.nextId_le
  · exact fun hc _ => hc.nextId_le
  · intro _ hh
    cases hh with
    | vote => exact Int.le_of_eq (Assembly.nextId_write ..).symm

/-! ### Any number of steps -/

theorem Later.nextId_le (h : c.Later c') (ho : c.assembly.Orderly) :
    c.assembly.nextId ≤ c'.assembly.nextId :=
  h.keeps (P := fun s => c.assembly.nextId ≤ s.nextId) ho
    (fun d _ hd call => Int.le_trans hd (perform_nextId_le d call)) (fun _ _ hs => hs)
    (Int.le_refl _)

/-- Whatever the host does, an id stands for one proposal only. -/
theorem Later.continues (h : c.Later c') (ho : c.assembly.Orderly)
    (hx : c.assembly.proposal? p = some x) (hy : c'.assembly.proposal? p = some y) :
    x.Continues y := by
  have hissued := (ho.proposals hx).issued
  have hlater := h.keeps
    (P := fun s => p < s.nextId ∧ ∀ y, s.proposal? p = some y → x.Continues y) ho
    (fun d hd ⟨hp, hall⟩ call => ⟨Int.lt_of_lt_of_le hp (perform_nextId_le d call), fun y hy => by
      obtain ⟨z, hz, hzy⟩ := perform_continues hd hp call hy
      exact (hall z hz).trans hzy⟩)
    (fun _ _ hs => hs)
    ⟨hissued, fun y hy => by
      cases hx.symm.trans hy
      exact .refl x⟩
  exact hlater.2 y hy

/-- A host can come from `c` to the other chamber without moving the clock back. -/
inductive Onward (c : Chamber σ) : Chamber σ → Prop
  | refl : Onward c c
  | step {d : Chamber σ} (h : Onward c d) (s : Step)
      (hn : d.assembly.now ≤ (d.step s).state.assembly.now) : Onward c (d.step s).state
  | host {d : Chamber σ} (h : Onward c d) (funds : σ) : Onward c (d.withFunds funds)

theorem Onward.later (h : c.Onward c') : c.Later c' := by
  induction h with
  | refl => exact .refl
  | step _ s _ ih => exact ih.step s
  | host _ funds ih => exact ih.host funds

theorem Onward.reachable {limits : Limits} {clock : Clock} {funds : σ}
    (h : (Chamber.empty limits clock funds).Onward c) : Reachable limits clock c := by
  induction h with
  | refl => exact .start funds
  | step _ s _ ih => exact ih.step s
  | host _ funds ih => exact ih.host funds

theorem Onward.now_le (h : c.Onward c') : c.assembly.now ≤ c'.assembly.now := by
  induction h with
  | refl => exact Int.le_refl _
  | step _ s hn ih => exact Int.le_trans ih hn
  | host _ funds ih => exact ih

theorem Onward.stageAt_le (h : c.Onward c') (ho : c.assembly.Orderly)
    (hx : c.assembly.proposal? p = some x) (hy : c'.assembly.proposal? p = some y) :
    x.stageAt c.assembly.now ≤ y.stageAt c'.assembly.now :=
  (h.later.continues ho hx hy).stageAt_le h.now_le

theorem step_now_le {s : Step} (hs : s.onward = true) :
    c.assembly.now ≤ (c.step s).state.assembly.now := by
  cases s with
  | call x => exact Int.le_of_eq (congrArg Clock.block (perform_clock c x)).symm
  | setBlock => cases hs
  | advance n =>
    show c.assembly.clock.block ≤ (c.assembly.clock.advance n).state.block
    unfold Clock.advance
    split
    · exact Int.le_refl _
    · next hn =>
      show c.assembly.clock.block ≤ c.assembly.clock.block + n
      omega

theorem Onward.run (h : c.Onward c') {steps : List Step} (hs : ∀ s ∈ steps, s.onward = true) :
    c.Onward (c'.run steps) := by
  induction steps generalizing c' with
  | nil => exact h
  | cons s rest ih =>
    have hstep := h.step s (step_now_le (hs s List.mem_cons_self))
    exact ih hstep fun s hmem => hs s (List.mem_cons_of_mem _ hmem)

end Chamber

end QuadraticVoting
