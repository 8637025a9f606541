import QuadraticVoting.Proofs.Later

/-!
# Releases

What the journal says of the lock of one voter on one proposal. Its events move the lock up when a
vote is cast and down when it is withdrawn or claimed, and what they come to is what the live
ballot locks (`Change.moved`). A claim is the last of them: from then on the proposal is closed and
the voter has no ballot on it (`Assembly.Spent`), and neither ever changes (`Later.silent`).

On a proposal whose id is too large to be written (`Reachable.isWritable`), votes and claims would
be made without being told.
-/

namespace QuadraticVoting

namespace Event

/-- The proposal and the voter whose lock an event is about. -/
def pair? : Event → Option (Int × Account)
  | voteCast b _ => some (b.proposal, b.voter)
  | voteWithdrawn p v _ | fundsClaimed p v _ => some (p, v)
  | voterRegistered _ | voterUnregistered _ | proposalCreated .. | proposalCancelled _
  | accountListSet .. | proposalClosed .. => none

/-- By how much an event moves that lock. -/
def moved : Event → Int
  | voteCast _ delta => delta
  | voteWithdrawn _ _ released => -released
  | fundsClaimed _ _ amount => -amount
  | voterRegistered _ | voterUnregistered _ | proposalCreated .. | proposalCancelled _
  | accountListSet .. | proposalClosed .. => 0

end Event

/-- By how much some events move a lock in all. -/
def movedOn (p : Int) (v : Account) (events : List Event) : Int :=
  ((events.filter (·.pair? = some (p, v))).map Event.moved).sum

theorem movedOn_append (p : Int) (v : Account) (events later : List Event) :
    movedOn p v (events ++ later) = movedOn p v events + movedOn p v later := by
  unfold movedOn
  rw [List.filter_append, List.map_append, List.sum_append]

theorem movedOn_cons {p q : Int} {v w : Account} {e : Event} (he : e.pair? = some (q, w))
    (events : List Event) : movedOn p v (e :: events) =
      (if p = q ∧ v = w then e.moved else 0) + movedOn p v events := by
  have hpair : e.pair? = some (p, v) ↔ p = q ∧ v = w := by
    rw [he, Option.some.injEq, Prod.mk.injEq, eq_comm, @eq_comm _ w]
  unfold movedOn
  rw [List.filter_cons]
  by_cases h : p = q ∧ v = w
  · rw [if_pos (decide_eq_true (hpair.2 h)), if_pos h, List.map_cons, List.sum_cons]
  · rw [if_neg (by simpa [hpair] using h), if_neg h, Int.zero_add]

theorem movedOn_of_pair? {p : Int} {v : Account} {events : List Event}
    (h : ∀ e ∈ events, e.pair? = none) : movedOn p v events = 0 := by
  have hnil : events.filter (·.pair? = some (p, v)) = [] :=
    List.filter_eq_nil_iff.2 fun e he => by simp [h e he]
  unfold movedOn
  rw [hnil]
  rfl

namespace VotePlan

theorem pair?_closingEvents (plan : VotePlan) : ∀ e ∈ plan.closingEvents, e.pair? = none := by
  intro e he
  rw [(mem_closingEvents_iff.1 he).2]
  rfl

theorem pair?_event (plan : VotePlan) :
    plan.event.pair? = some (plan.ballot.proposal, plan.ballot.voter) := by
  unfold event
  split <;> rfl

end VotePlan

namespace Assembly

theorem Planned.moved_event {s : Assembly} {spendable : Account → Int} {p : Int} {voter : Account}
    {aye : Bool} {weight : Value} {now : Int} {plan : VotePlan}
    (hp : Planned s spendable p voter aye weight now plan) :
    plan.event.moved = priorCost plan.current - priorCost plan.prior := by
  unfold VotePlan.event VotePlan.current
  split
  · exact hp.delta_eq
  · exact (Int.zero_sub _).symm

/-- A closed proposal on which a voter has no ballot: there is nothing to claim, and never will be
again. -/
structure Spent (s : Assembly) (p : Int) (v : Account) : Prop where
  closed : (s.closed? p).isSome = true
  gone : s.ballot? p v = none

theorem Spent.congr {s s' : Assembly} {p : Int} {v : Account} (h : s.Spent p v)
    (hp : s'.proposals = s.proposals) (hb : s'.ballots = s.ballots) : s'.Spent p v where
  closed := by
    rw [closed?_congr (s := s) (congrArg (·.get? p) hp)]
    exact h.closed
  gone := by
    unfold ballot?
    rw [hb]
    exact h.gone

/-- A spent lock of which nothing has been said since the journal was this one. -/
structure Silent (s : Assembly) (journal : List Event) (p : Int) (v : Account) : Prop where
  spent : s.Spent p v
  journal_eq : ∃ later, s.journal = journal ++ later ∧ ∀ e ∈ later, e.pair? ≠ some (p, v)

/-- What the journal says of a lock: it comes to what the live ballot locks, and nothing is left
after a claim. -/
structure Settled (s : Assembly) (p : Int) (v : Account) : Prop where
  moved_eq : Value.isWritable p = true → movedOn p v s.journal = priorCost (s.ballot? p v)
  spent : ∀ {n}, .fundsClaimed p v n ∈ s.journal → s.Spent p v

end Assembly

namespace Chamber

variable {σ : Type} [FundLock σ] {c c' : Chamber σ} {call : Call} {events : List Event}
  {notices : List Log.Notice} {a : Answer}

/-! ### One call -/

/-- What the events of a change move is the difference between the locks before and after it. -/
theorem Change.moved (hc : c.Change call c' events notices a) (p : Int) (v : Account) :
    movedOn p v events =
      Assembly.priorCost (c'.assembly.ballot? p v) -
        Assembly.priorCost (c.assembly.ballot? p v) := by
  have hsame : ∀ {s : Assembly}, s.ballots = c.assembly.ballots → 0 =
      Assembly.priorCost (s.ballot? p v) - Assembly.priorCost (c.assembly.ballot? p v) := by
    intro s hs
    unfold Assembly.ballot?
    rw [hs, Int.sub_self]
  cases hc with
  | registered | unregistered | created | cancelled | listed | closed =>
    exact (movedOn_of_pair? (List.forall_mem_singleton.2 rfl)).trans (hsame rfl)
  | @voted o q aye weight voter plan ho hp hf =>
    have hplan := Assembly.planVote_eq_ok_iff.1 hp
    have hafter : (c.assembly.carry plan).ballot? p v =
        if p = q ∧ v = voter then plan.current else c.assembly.ballot? p v := by
      rw [Assembly.ballot?_carry, Assembly.ballot?_write, hplan.ballot_proposal,
        hplan.ballot_voter]
    have hpair := plan.pair?_event
    rw [hplan.ballot_proposal, hplan.ballot_voter] at hpair
    rw [plan.voteEvents_outcome, movedOn_cons hpair, movedOn_of_pair? plan.pair?_closingEvents,
      hplan.moved_event, hplan.prior_eq, hafter]
    by_cases hpv : p = q ∧ v = voter
    · obtain ⟨rfl, rfl⟩ := hpv
      simp
    · simp [hpv]
  | @claimed o q voter b ho hb hf =>
    have hv : o.account = voter := (Origin.signer_eq_ok_iff.1 ho).2.1
    have hlive := (checkClaim_eq_ok_iff.1 hb).2.2
    have hafter := c.assembly.ballot?_dropBallot q voter p v
    rw [hv, movedOn_cons (q := q) (w := voter) rfl, movedOn_of_pair? (List.forall_mem_nil _),
      hafter]
    by_cases hpv : p = q ∧ v = voter
    · obtain ⟨rfl, rfl⟩ := hpv
      simp [hlive, Event.moved, Assembly.priorCost]
    · simp [hpv]

theorem Change.pair?_events (hc : c.Change call c' events notices a) {e : Event} (he : e ∈ events)
    {p : Int} {v : Account} (hpv : e.pair? = some (p, v)) :
    call.proposal? = some p ∧ call.origin.account = v := by
  cases hc with
  | registered | unregistered | created | cancelled | listed | closed =>
    rw [List.mem_singleton.1 he] at hpv
    cases hpv
  | voted ho hp hf =>
    have hplan := Assembly.planVote_eq_ok_iff.1 hp
    rw [VotePlan.voteEvents_outcome] at he
    rcases List.mem_cons.1 he with rfl | he
    · rw [VotePlan.pair?_event, hplan.ballot_proposal, hplan.ballot_voter] at hpv
      cases hpv
      exact ⟨rfl, (Origin.signer_eq_ok_iff.1 ho).2.1⟩
    · cases (VotePlan.pair?_closingEvents _ e he).symm.trans hpv
  | claimed ho hb hf =>
    rw [List.mem_singleton.1 he] at hpv
    cases hpv
    exact ⟨rfl, rfl⟩

/-- No change is about a lock that is spent, and it stays so. -/
theorem Change.spent_stays (hc : c.Change call c' events notices a) (h : c.assembly.Orderly)
    {p : Int} {v : Account} (hs : c.assembly.Spent p v) :
    c'.assembly.Spent p v ∧ ∀ e ∈ events, e.pair? ≠ some (p, v) := by
  obtain ⟨x, hx⟩ := Option.isSome_iff_exists.1 hs.closed
  have hclosed : (c'.assembly.closed? p).isSome = true :=
    Option.isSome_iff_exists.2 ⟨x, hc.closed?_stays h hx⟩
  refine ⟨⟨hclosed, ?_⟩, fun e he hpv => ?_⟩
  · by_cases hp : call.proposal? = some p
    · obtain ⟨o, rfl⟩ := hc.eq_claim hx hp
      cases hc with
      | claimed ho hb hf =>
        rw [Assembly.ballot?_dropBallot, hs.gone, ite_self]
    · exact ((hc.frame h hp).2.2 v).trans hs.gone
  · obtain ⟨hp, hv⟩ := hc.pair?_events he hpv
    obtain ⟨o, rfl⟩ := hc.eq_claim hx hp
    cases hc with
    | claimed ho hb hf =>
      -- The claim has found a ballot where there is none.
      have hlive := (checkClaim_eq_ok_iff.1 hb).2.2
      rw [← (Origin.signer_eq_ok_iff.1 ho).2.1] at hlive
      cases hs.gone.symm.trans (hv ▸ hlive)

theorem Halfway.spent_stays (hh : c.Halfway call c') {p : Int} {v : Account}
    (hs : c.assembly.Spent p v) : c'.assembly.Spent p v := by
  obtain ⟨x, hx⟩ := Option.isSome_iff_exists.1 hs.closed
  have hframe := hh.frame (hh.ne_of_closed hx)
  exact ⟨(congrArg Option.isSome (Assembly.closed?_congr hframe.1)).trans hs.closed,
    (hframe.2 v).trans hs.gone⟩

theorem Change.spent_of_claimed (hc : c.Change call c' events notices a) {p : Int} {v : Account}
    {n : Int} (he : .fundsClaimed p v n ∈ events) : c'.assembly.Spent p v := by
  cases hc with
  | registered | unregistered | created | cancelled | listed | closed =>
    cases List.mem_singleton.1 he
  | voted ho hp hf =>
    rw [VotePlan.voteEvents_outcome] at he
    rcases List.mem_cons.1 he with he | he
    · unfold VotePlan.event at he
      split at he <;> cases he
    · cases VotePlan.pair?_closingEvents _ _ he
  | @claimed o q voter b ho hb hf =>
    cases List.mem_singleton.1 he
    obtain ⟨-, ⟨x, hx, hclosed⟩, hlive⟩ := checkClaim_eq_ok_iff.1 hb
    have hx : (c.assembly.dropBallot p voter).proposal? p = some x :=
      (Assembly.proposal?_dropBallot ..).trans hx
    refine ⟨Option.isSome_iff_exists.2 ⟨x, Assembly.closed?_eq_some_iff.2 ⟨hx, hclosed⟩⟩, ?_⟩
    rw [(Origin.signer_eq_ok_iff.1 ho).2.1]
    exact (Assembly.ballot?_dropBallot ..).trans (if_pos ⟨rfl, rfl⟩)

/-! ### Any number of steps -/

section AnyHost

variable [Host]

theorem perform_settled (h : c.assembly.Orderly) {p : Int} {v : Account}
    (hs : c.assembly.Settled p v) (call : Call) :
    (c.perform call).state.assembly.Settled p v := by
  refine perform_assembly (P := (·.Settled p v)) call hs ?_ ?_ ?_
  · intro c' events notices a hc
    refine ⟨fun hp => ?_, fun {n} hn => ?_⟩
    · have hmoved := hc.moved p v
      have hbefore := hs.moved_eq hp
      show movedOn p v (c'.assembly.journal ++ events) =
        Assembly.priorCost (c'.assembly.ballot? p v)
      rw [movedOn_append, hc.journal]
      omega
    · rcases List.mem_append.1 hn with hn | hn
      · rw [hc.journal] at hn
        exact (hc.spent_stays h (hs.spent hn)).1.congr rfl rfl
      · exact (hc.spent_of_claimed hn).congr rfl rfl
  · intro c' events notices a hc hn
    refine ⟨fun hp => ?_, fun {n} he => ?_⟩
    · rw [hc.journal, (hc.eq_of_untold h hn hp).2 v]
      exact hs.moved_eq hp
    · rw [hc.journal] at he
      exact (hc.spent_stays h (hs.spent he)).1
  · intro c' hh
    refine ⟨fun hp => ?_, fun {n} he => ?_⟩
    · rw [hh.journal, (hh.frame (hh.ne_of_isWritable h hp)).2 v]
      exact hs.moved_eq hp
    · rw [hh.journal] at he
      exact hh.spent_stays (hs.spent he)

theorem Reachable.settled {limits : Limits} {clock : Clock} (h : Reachable limits clock c)
    (p : Int) (v : Account) : c.assembly.Settled p v :=
  h.keeps (P := (·.Settled p v)) (fun _ ho hs call => perform_settled ho hs call)
    (fun _ _ hs => ⟨hs.moved_eq, fun hn => (hs.spent hn).congr rfl rfl⟩) ⟨fun _ => rfl, nofun⟩

theorem perform_silent (h : c.assembly.Orderly) {journal : List Event} {p : Int} {v : Account}
    (hs : c.assembly.Silent journal p v) (call : Call) :
    (c.perform call).state.assembly.Silent journal p v := by
  obtain ⟨hspent, later, hjournal, hlater⟩ := hs
  refine perform_assembly (P := (·.Silent journal p v)) call
    ⟨hspent, later, hjournal, hlater⟩ ?_ ?_ ?_
  · intro _ events _ _ hc
    obtain ⟨hspent', hevents⟩ := hc.spent_stays h hspent
    refine ⟨hspent'.congr rfl rfl, later ++ events, ?_, ?_⟩
    · rw [← List.append_assoc, ← hjournal, ← hc.journal]
      rfl
    · exact List.forall_mem_append.2 ⟨hlater, hevents⟩
  · intro _ _ _ _ hc _
    exact ⟨(hc.spent_stays h hspent).1, later, hc.journal.trans hjournal, hlater⟩
  · intro _ hh
    exact ⟨hh.spent_stays hspent, later, hh.journal.trans hjournal, hlater⟩

/-- A spent lock stays spent, and the journal never comes to speak of it again. -/
theorem Later.silent (h : c.Later c') (ho : c.assembly.Orderly) {p : Int} {v : Account}
    (hs : c.assembly.Spent p v) : c'.assembly.Silent c.assembly.journal p v :=
  h.keeps (P := (·.Silent c.assembly.journal p v)) ho
    (fun _ hd hs call => perform_silent hd hs call)
    (fun _ _ hs => ⟨hs.spent.congr rfl rfl, hs.journal_eq⟩)
    ⟨hs, [], (List.append_nil _).symm, List.forall_mem_nil _⟩

/-- What is locked, less what is withdrawn and claimed, is what the live ballot locks, on every id
that can be written, as the first `Value.writtenBound` of them are. Once the journal tells a claim,
it never speaks of that lock again, wherever the host goes from there with calls, with moves of the
clock and with the funds: whoever claims it fails and changes nothing. -/
theorem reachable_released_once (limits : Limits) (clock : Clock) (h : c.Reachable limits clock)
    (p : Int) (v : Account) :
    (Value.isWritable p = true →
      movedOn p v c.assembly.journal = Assembly.priorCost (c.assembly.ballot? p v)) ∧
      ∀ n, .fundsClaimed p v n ∈ c.assembly.journal → ∀ c', c.Later c' →
        (∃ later, c'.assembly.journal = c.assembly.journal ++ later ∧
          ∀ e ∈ later, e.pair? ≠ some (p, v)) ∧
        ∀ o, o.account = v → ∃ f, (c'.perform (.claim o p)).result = .error f ∧
          (c'.perform (.claim o p)).state = c' := by
  have hsettled := h.settled p v
  refine ⟨hsettled.moved_eq, fun n hn c' hc' => ?_⟩
  obtain ⟨hspent, hlater⟩ := hc'.silent h.orderly (hsettled.spent hn)
  refine ⟨hlater, fun o ho => perform_claim_refused fun b hb => ?_⟩
  have hlive := (checkClaim_eq_ok_iff.1 hb).2.2
  rw [ho] at hlive
  cases hspent.gone.symm.trans hlive

end AnyHost

/-- A vote that is lowered from 3 to 2 and claimed moves its lock by 9, by 4 - 9 and by -4. After
the clock has been set back, it cannot be claimed again. -/
theorem reachable_released_once_lowered :
    let start := Chamber.empty .standard .zero (⟨10, false, []⟩ : HostFunds)
    let c := start.run [
      .call (.registerVoter .root Round.ann),
      .call (.createProposal ⟨Round.ann, false⟩ ⟨.bytes [], .kind .publicVote, .none, 1, 101⟩),
      .advance 1,
      .call (.vote ⟨Round.ann, false⟩ 0 (.bool true) (.int 3)),
      .call (.vote ⟨Round.ann, false⟩ 0 (.bool true) (.int 2)),
      .advance 101,
      .call (.closeProposal .root 0),
      .call (.claim ⟨Round.ann, false⟩ 0)]
    let c' := (c.step (.setBlock 1)).state
    c.Reachable .standard .zero ∧ .fundsClaimed 0 Round.ann 4 ∈ c.assembly.journal ∧
      movedOn 0 Round.ann c.assembly.journal = 9 + (4 - 9) + -4 ∧
      ∃ f, (c'.perform (.claim ⟨Round.ann, false⟩ 0)).result = .error f := by
  intro start c c'
  have hreach : c.Reachable .standard .zero := (Reachable.start _).run _
  have hn : .fundsClaimed 0 Round.ann 4 ∈ c.assembly.journal := by decide
  have h := reachable_released_once .standard .zero hreach 0 Round.ann
  obtain ⟨f, hf, -⟩ := (h.2 4 hn c' (.step .refl _)).2 ⟨Round.ann, false⟩ rfl
  exact ⟨hreach, hn, (h.1 (by decide)).trans (by decide), f, hf⟩

end Chamber

end QuadraticVoting
