import QuadraticVoting.Proofs.Protocol
import QuadraticVoting.Proofs.Releases
import QuadraticVoting.Proofs.Retelling
import QuadraticVoting.Proofs.Stranding

/-!
# Histories

What the journal says of a proposal (`wordOn`) and of a voter's lock on it (`wordOf`) comes in the
order of `Protocol.ofProposal` and `Protocol.ofVoter`. No check of a call asks for that order. It
follows from what each change may make of a proposal (`Change.turn`) and of a ballot
(`Change.ballot_turn`), as long as the clock does not move back (`Chamber.Onward`): then what has
started stays so, and neither its list nor the proposal itself is touched any more.

A creation that is not told (`Chamber.hides`) is missing from the history of its proposal, and the
rest of the history is as if it were there.
-/

namespace QuadraticVoting

open Protocol

/-- The kinds of the events about a proposal. -/
def wordOn (p : Int) (events : List Event) : List EventKind :=
  (events.filter (·.proposal? = some p)).map Event.kind

/-- The kinds of the events about the lock of a voter on a proposal. -/
def wordOf (p : Int) (v : Account) (events : List Event) : List EventKind :=
  (events.filter (·.pair? = some (p, v))).map Event.kind

section Words

variable {p : Int} {v : Account} {events : List Event}

theorem wordOn_append (p : Int) (events later : List Event) :
    wordOn p (events ++ later) = wordOn p events ++ wordOn p later := by
  unfold wordOn
  rw [List.filter_append, List.map_append]

theorem wordOf_append (p : Int) (v : Account) (events later : List Event) :
    wordOf p v (events ++ later) = wordOf p v events ++ wordOf p v later := by
  unfold wordOf
  rw [List.filter_append, List.map_append]

theorem wordOn_of_ne (h : ∀ e ∈ events, e.proposal? ≠ some p) : wordOn p events = [] := by
  unfold wordOn
  rw [List.filter_eq_nil_iff.2 fun e he => by simpa using h e he]
  rfl

theorem wordOf_of_ne (h : ∀ e ∈ events, e.pair? ≠ some (p, v)) : wordOf p v events = [] := by
  unfold wordOf
  rw [List.filter_eq_nil_iff.2 fun e he => by simpa using h e he]
  rfl

theorem wordOn_of_eq (h : ∀ e ∈ events, e.proposal? = some p) :
    wordOn p events = events.map Event.kind := by
  unfold wordOn
  rw [List.filter_eq_self.2 fun e he => by simpa using h e he]

end Words

theorem VotePlan.wordOn_events (plan : VotePlan) : ∃ k, isVote k = true ∧
    wordOn plan.ballot.proposal (Chamber.voteEvents plan.outcome) =
      k :: if plan.closes then [.proposalClosed] else [] := by
  have hall : ∀ e ∈ plan.event :: plan.closingEvents,
      e.proposal? = some plan.ballot.proposal :=
    List.forall_mem_cons.2 ⟨plan.proposal?_event, plan.proposal?_closingEvents⟩
  refine ⟨plan.event.kind, ?_, ?_⟩
  · unfold event
    split <;> rfl
  · rw [plan.voteEvents_outcome, wordOn_of_eq hall]
    unfold closingEvents
    split <;> rfl

theorem VotePlan.wordOf_events (plan : VotePlan) :
    wordOf plan.ballot.proposal plan.ballot.voter (Chamber.voteEvents plan.outcome) =
      [plan.event.kind] := by
  have hclosing : wordOf plan.ballot.proposal plan.ballot.voter plan.closingEvents = [] :=
    wordOf_of_ne fun e he => by
      rw [plan.pair?_closingEvents e he]
      exact nofun
  have hone : wordOf plan.ballot.proposal plan.ballot.voter [plan.event] = [plan.event.kind] := by
    simp [wordOf, plan.pair?_event]
  rw [plan.voteEvents_outcome, ← List.singleton_append, wordOf_append, hclosing, hone]
  rfl

/-- What a vote that is carried out makes of a ballot, and the kind of the event that tells it. -/
theorem Assembly.Planned.ballot_turn {s : Assembly} {spendable : Account → Int} {q : Int}
    {voter : Account} {aye : Bool} {weight : Value} {now : Int} {plan : VotePlan}
    (hplan : Planned s spendable q voter aye weight now plan) (p : Int) (v : Account) :
    (wordOf p v (Chamber.voteEvents plan.outcome) = [] ∧
        (s.carry plan).ballot? p v = s.ballot? p v) ∨
      (wordOf p v (Chamber.voteEvents plan.outcome) = [.voteCast] ∧
        ((s.carry plan).ballot? p v).isSome = true) ∨
      (wordOf p v (Chamber.voteEvents plan.outcome) = [.voteWithdrawn] ∧
        (s.ballot? p v).isSome = true ∧ (s.carry plan).ballot? p v = none) := by
  have hafter := (s.ballot?_carry plan p v).trans (s.ballot?_write plan p v)
  by_cases hpv : p = plan.ballot.proposal ∧ v = plan.ballot.voter
  · have hself := hafter.trans (if_pos hpv)
    obtain ⟨rfl, rfl⟩ := hpv
    have hword := plan.wordOf_events
    by_cases hw : plan.ballot.weight > 0
    · refine .inr (.inl ⟨hword.trans ?_, ?_⟩)
      · rw [VotePlan.event, if_pos hw]
        rfl
      · rw [hself, VotePlan.current, if_pos hw]
        rfl
    · refine .inr (.inr ⟨hword.trans ?_, ?_, ?_⟩)
      · rw [VotePlan.event, if_neg hw]
        rfl
      · -- Weight 0 is refused where there is no ballot.
        have hweight := (requireChange_eq_ok_iff.1 hplan.changes).1
        have hnonneg := hplan.weight_nonneg
        rw [hplan.ballot_proposal, hplan.ballot_voter, ← hplan.prior_eq,
          Option.isSome_iff_ne_none]
        intro hprior
        have := hweight hprior
        omega
      · rw [hself, VotePlan.current, if_neg hw]
  · refine .inl ⟨wordOf_of_ne fun e he hep => hpv ?_, hafter.trans (if_neg hpv)⟩
    rw [plan.voteEvents_outcome] at he
    rcases List.mem_cons.1 he with rfl | he
    · cases plan.pair?_event.symm.trans hep
      exact ⟨rfl, rfl⟩
    · cases (plan.pair?_closingEvents e he).symm.trans hep

namespace Chamber

variable {σ : Type} [FundLock σ] {c c' : Chamber σ} {call : Call} {events : List Event}
  {notices : List Log.Notice} {a : Answer} {p : Int} {v : Account}

/-! ### Turns of a proposal -/

theorem Change.wordOn_eq_nil (hc : c.Change call c' events notices a)
    (hcall : call.proposal? ≠ some p) (hp : p ≠ c.assembly.nextId) : wordOn p events = [] := by
  refine wordOn_of_ne fun e he hep => ?_
  rcases hc.proposal?_events he with he | ⟨x, rfl, hx⟩
  · exact hcall (he.symm.trans hep)
  · exact hp ((Option.some.inj hep).symm.trans hx)

/-- A change makes a turn of every proposal whose id has been handed out. -/
theorem Change.turn (hc : c.Change call c' events notices a) (h : c.assembly.Orderly)
    (hp : p < c.assembly.nextId) : Turn c.assembly.now (c.assembly.proposal? p)
      (wordOn p events) (c'.assembly.proposal? p) := by
  by_cases hcall : call.proposal? = some p
  · cases hc with
    | registered | unregistered | created => cases hcall
    | @cancelled o q x hx =>
      cases hcall
      obtain ⟨hstored, -, hpending⟩ := Assembly.checkCancel_eq_ok_iff.1 hx
      obtain ⟨hopen, hs⟩ := Proposal.isPendingAt_iff.1 hpending
      have hgone : (c.assembly.proposals.erase p).get? p = none := OrdMap.get?_erase_self ..
      rw [hstored, wordOn_of_eq (List.forall_mem_singleton.2 rfl)]
      show Turn _ (some x) [.proposalCancelled] ((c.assembly.proposals.erase p).get? p)
      rw [hgone]
      exact .cancelled hopen hs
    | @listed o q arg x l hx hl =>
      cases hcall
      obtain ⟨hopen, hs⟩ := Proposal.isPendingAt_iff.1 (Assembly.checkAccountList_eq_ok_iff.1 hl).1
      have hput := (c.assembly.proposal?_putProposal p p { x with accounts := l }).trans
        (if_pos rfl)
      rw [(checkEditor_eq_ok_iff.1 hx).1, wordOn_of_eq (List.forall_mem_singleton.2 rfl)]
      exact hput.symm ▸ .listed hopen hs hopen
    | @closed o q x hx ho =>
      cases hcall
      have hput := (c.assembly.proposal?_putProposal p p { x with status := .closed }).trans
        (if_pos rfl)
      rw [(Assembly.checkClose_eq_ok_iff.1 hx).1, wordOn_of_eq (List.forall_mem_singleton.2 rfl)]
      exact hput.symm ▸ .closed ho rfl
    | @voted o q aye weight voter plan ho hv hf =>
      cases hcall
      have hplan := Assembly.planVote_eq_ok_iff.1 hv
      have hself := c.assembly.proposal?_carry_self plan
      obtain ⟨k, hk, hword⟩ := plan.wordOn_events
      rw [hplan.ballot_proposal] at hself hword
      rw [hplan.proposal_eq, hword]
      cases hcl : plan.closes with
      | true =>
        rw [hcl, if_pos rfl] at hself
        exact hself.symm ▸ .decided hk hplan.is_open rfl
      | false =>
        rw [hcl, if_neg Bool.false_ne_true] at hself
        exact hself.symm ▸ .voted hk hplan.is_open hplan.started hplan.is_open
    | @claimed o q voter b ho hb hf =>
      cases hcall
      obtain ⟨-, ⟨x, hx, hclosed⟩, -⟩ := checkClaim_eq_ok_iff.1 hb
      have hsame := (Assembly.proposal?_dropBallot c.assembly p p voter).trans hx
      rw [hx, wordOn_of_eq (List.forall_mem_singleton.2 rfl)]
      exact hsame.symm ▸ .claimed hclosed
  · rw [hc.wordOn_eq_nil hcall (Int.ne_of_lt hp), (hc.frame h hcall).1 (Int.ne_of_lt hp)]
    exact .still _

/-- Of an id that has not been handed out, a change says nothing, or it hands it out. -/
theorem Change.first_turn (hc : c.Change call c' events notices a) (h : c.assembly.Orderly)
    (hp : c.assembly.nextId ≤ p) :
    (c'.assembly.nextId ≤ p ∧ wordOn p events = []) ∨
      (call.creates = true ∧ p = c.assembly.nextId ∧ wordOn p events = [.proposalCreated] ∧
        p < c'.assembly.nextId ∧ Placed c'.assembly.now (c'.assembly.proposal? p) []) := by
  have hcall : call.proposal? ≠ some p := by
    intro hcall
    obtain ⟨x, hx⟩ := hc.exists_proposal hcall
    cases (h.proposal?_of_le hp).symm.trans hx
  have hnext := hc.nextId_eq
  by_cases hlast : p = c.assembly.nextId ∧ call.creates = true
  · right
    obtain ⟨rfl, hcreates⟩ := hlast
    have hdrafted : wordOn c.assembly.nextId events = [.proposalCreated] ∧
        ∃ x, c'.assembly.proposal? c.assembly.nextId = some x ∧ x.isClosed = false := by
      cases hc with
      | registered | unregistered | cancelled | listed | closed | voted | claimed => cases hcreates
      | created ho hx =>
        obtain ⟨-, data, accounts, kind, -, -, -, -, rfl⟩ := Assembly.draftProposal_eq_ok_iff.1 hx
        refine ⟨wordOn_of_eq (List.forall_mem_singleton.2 rfl), _,
          (c.assembly.proposal?_insert _ _ _).trans (if_pos rfl), ?_⟩
        rfl
    obtain ⟨hword, x, hx, ho⟩ := hdrafted
    rw [hcreates, if_pos rfl] at hnext
    exact ⟨hcreates, rfl, hword, by omega, hx.symm ▸ .drafted ho (nil_mem_star _)⟩
  · left
    by_cases hcreates : call.creates = true
    · rw [hcreates, if_pos rfl] at hnext
      have hne : p ≠ c.assembly.nextId := fun he => hlast ⟨he, hcreates⟩
      exact ⟨by omega, hc.wordOn_eq_nil hcall hne⟩
    · rw [if_neg hcreates] at hnext
      refine ⟨by omega, wordOn_of_ne fun e he hep => ?_⟩
      rcases hc.proposal?_events he with he | ⟨x, rfl, -⟩
      · exact hcall (he.symm.trans hep)
      · have hcount := hc.countP_creates
        rw [if_neg hcreates] at hcount
        have hnone := List.countP_eq_zero.1 (Int.natCast_eq_zero.1 hcount) _ he
        exact hnone rfl

/-! ### Histories of a proposal -/

/-- The history of a proposal: its creation, which may be missing, and what has been said of it
since. -/
structure Follows (s : Assembly) (p : Int) (since : List EventKind) : Prop where
  word_eq : wordOn p s.journal = since ∨ wordOn p s.journal = .proposalCreated :: since
  not_created : .proposalCreated ∉ since
  placed : Placed s.now (s.proposal? p) since

/-- The history of an id: nothing, if it cannot be written or has not been handed out, or that of
its proposal. -/
inductive Lawful (s : Assembly) (p : Int) : Prop
  | silent (hp : Value.isWritable p = true → s.nextId ≤ p) (hw : wordOn p s.journal = [])
  | follows {since : List EventKind} (hw : Value.isWritable p = true) (hp : p < s.nextId)
      (h : Follows s p since)

theorem Lawful.empty (limits : Limits) (clock : Clock) (p : Int) :
    Lawful (.empty limits clock) p := by
  by_cases hp : Value.isWritable p = true ∧ p < 0
  · exact .follows hp.1 hp.2 ⟨.inl rfl, List.not_mem_nil, .absent⟩
  · exact .silent (fun hw => Int.not_lt.1 fun hlt => hp ⟨hw, hlt⟩) rfl

theorem Lawful.told (hl : Lawful c.assembly p) (h : c.assembly.Orderly)
    (hc : c.Change call c' events notices a) (hn : ∀ n ∈ notices, n.Writable) :
    Lawful (c'.assembly.append events) p := by
  have hword : wordOn p (c'.assembly.journal ++ events) =
      wordOn p c.assembly.journal ++ wordOn p events := by
    rw [hc.journal, wordOn_append]
  have hnow : c'.assembly.now = c.assembly.now := congrArg Clock.block hc.alike.clock_eq
  cases hl with
  | silent hp hw =>
    rw [hw, List.nil_append] at hword
    rcases Int.lt_or_le p c.assembly.nextId with hlt | hle
    · have hnot : ¬ Value.isWritable p = true := fun hw => by
        have := hp hw
        omega
      -- What is told is about ids that can be written.
      have hcall : call.proposal? ≠ some p := fun hcall => hnot (hc.isWritable h hn hcall)
      have hnil := hc.wordOn_eq_nil hcall (Int.ne_of_lt hlt)
      exact .silent (fun hw => absurd hw hnot) (hword.trans hnil)
    · rcases hc.first_turn h hle with ⟨hnext, hnil⟩ | ⟨hcreates, rfl, hone, hissued, hplaced⟩
      · exact .silent (fun _ => hnext) (hword.trans hnil)
      · exact .follows (hc.isWritable_nextId h hn hcreates) hissued
          ⟨.inr (hword.trans hone), List.not_mem_nil, hplaced⟩
  | @follows since hw hp hf =>
    have hturn := hc.turn h hp
    have hplaced := hf.placed.turn hturn
    refine .follows hw (Int.lt_of_lt_of_le hp hc.nextId_le) ⟨?_, ?_, hnow ▸ hplaced⟩
    · show wordOn p (c'.assembly.journal ++ events) = _ ∨
        wordOn p (c'.assembly.journal ++ events) = _
      rw [hword]
      rcases hf.word_eq with he | he
      · exact .inl (by rw [he])
      · exact .inr (by rw [he, List.cons_append])
    · exact fun hmem => (List.mem_append.1 hmem).elim hf.not_created hturn.not_created

/-- Of a change that is not told, nothing is seen in the history of an id that can be written, but
that it has been handed out. -/
theorem Lawful.untold (hl : Lawful c.assembly p) (h : c.assembly.Orderly)
    (hc : c.Change call c' events notices a) (hn : ¬ ∀ n ∈ notices, n.Writable) :
    Lawful c'.assembly p := by
  have hnow : c'.assembly.now = c.assembly.now := congrArg Clock.block hc.alike.clock_eq
  cases hl with
  | silent hp hw =>
    rw [← hc.journal] at hw
    by_cases hwrite : Value.isWritable p = true
    · rcases hc.first_turn h (hp hwrite) with ⟨hnext, -⟩ | ⟨-, rfl, -, hissued, hplaced⟩
      · exact .silent (fun _ => hnext) hw
      · exact .follows hwrite hissued ⟨.inl hw, List.not_mem_nil, hplaced⟩
    · exact .silent (fun hw => absurd hw hwrite) hw
  | follows hw hp hf =>
    have hcall : call.proposal? ≠ some p := fun hcall => hn <| by
      rw [hc.writable_iff h, numbers_of_proposal? hcall]
      exact List.forall_mem_singleton.2 hw
    have hsame := (hc.frame h hcall).1 (Int.ne_of_lt hp)
    refine .follows hw (Int.lt_of_lt_of_le hp hc.nextId_le) ⟨?_, hf.not_created, ?_⟩
    · rw [hc.journal]
      exact hf.word_eq
    · rw [hsame, hnow]
      exact hf.placed

theorem Lawful.halfway (hl : Lawful c.assembly p) (h : c.assembly.Orderly)
    (hh : c.Halfway call c') : Lawful c'.assembly p := by
  have hnow : c'.assembly.now = c.assembly.now := congrArg Clock.block hh.alike.clock_eq
  have hnext : c'.assembly.nextId = c.assembly.nextId := by
    cases hh with
    | vote => exact Assembly.nextId_write ..
  cases hl with
  | silent hp hw => exact .silent (fun hw => hnext.symm ▸ hp hw) (hh.journal ▸ hw)
  | follows hw hp hf =>
    have hsame := (hh.frame (hh.ne_of_isWritable h hw)).1
    refine .follows hw (hnext.symm ▸ hp) ⟨?_, hf.not_created, ?_⟩
    · rw [hh.journal]
      exact hf.word_eq
    · rw [hsame, hnow]
      exact hf.placed

theorem perform_lawful [Host] (h : c.assembly.Orderly) (hl : Lawful c.assembly p) (call : Call) :
    Lawful (c.perform call).state.assembly p := by
  refine perform_told (P := (Lawful · p)) call hl ?_ ?_ ?_
  · exact fun hc hn => hl.told h hc hn
  · exact fun hc hn => hl.untold h hc hn
  · exact fun hh => hl.halfway h hh

theorem Lawful.mono {s s' : Assembly} (hl : Lawful s p) (hp : s'.proposals = s.proposals)
    (hn : s'.nextId = s.nextId) (hj : s'.journal = s.journal) (hnow : s.now ≤ s'.now) :
    Lawful s' p := by
  cases hl with
  | silent hp hw => exact .silent (hn.symm ▸ hp) (hj.symm ▸ hw)
  | follows hw hlt hf =>
    have hsame : s'.proposal? p = s.proposal? p := congrArg (·.get? p) hp
    refine .follows hw (hn.symm ▸ hlt) ⟨hj.symm ▸ hf.word_eq, hf.not_created, ?_⟩
    rw [hsame]
    exact hf.placed.mono hnow

theorem Onward.lawful [Host] (hc : c.Onward c') (h : c.assembly.Orderly)
    (hl : Lawful c.assembly p) : Lawful c'.assembly p := by
  induction hc with
  | refl => exact hl
  | @step d hd s hn ih =>
    cases s with
    | call x => exact perform_lawful (hd.later.orderly h) ih x
    | setBlock | advance => exact ih.mono rfl rfl rfl hn
  | host _ funds ih => exact ih

/-- Once an id has been handed out, no event tells its creation any more. -/
theorem Later.created_mem_iff [Host] (hc : c.Later c') (h : c.assembly.Orderly)
    (hp : p < c.assembly.nextId) : .proposalCreated ∈ wordOn p c'.assembly.journal ↔
      .proposalCreated ∈ wordOn p c.assembly.journal := by
  refine (hc.keeps (P := fun s => p < s.nextId ∧ (.proposalCreated ∈ wordOn p s.journal ↔
    .proposalCreated ∈ wordOn p c.assembly.journal)) h (fun d hd ⟨hlt, hiff⟩ call => ?_)
    (fun _ _ hs => hs) ⟨hp, Iff.rfl⟩).2
  refine ⟨Int.lt_of_lt_of_le hlt (perform_nextId_le d call), Iff.trans ?_ hiff⟩
  refine perform_assembly (P := fun s => .proposalCreated ∈ wordOn p s.journal ↔
    .proposalCreated ∈ wordOn p d.assembly.journal) call Iff.rfl ?_ ?_ ?_
  · intro d' events _ _ hc
    have hnot := (hc.turn hd hlt).not_created
    show _ ∈ wordOn p (d'.assembly.journal ++ events) ↔ _
    rw [hc.journal, wordOn_append, List.mem_append]
    exact ⟨fun hmem => hmem.resolve_right hnot, Or.inl⟩
  · intro _ _ _ _ hc _
    rw [hc.journal]
  · intro _ hh
    rw [hh.journal]

theorem perform_create_mem_iff [Host] (h : c.assembly.Orderly)
    (hl : Lawful c.assembly c.assembly.nextId) (o : Origin) (d : Draft)
    (hn : (c.perform (.createProposal o d)).state.assembly.nextId = c.assembly.nextId + 1) :
    .proposalCreated ∈ wordOn c.assembly.nextId
        (c.perform (.createProposal o d)).state.assembly.journal ↔
      c.hides (.call (.createProposal o d)) = false := by
  have hsame : ∀ {r : Chamber σ}, (c.perform (.createProposal o d)).state = r →
      r.assembly = c.assembly → False := by
    rintro r hs hr
    rw [hs, hr] at hn
    omega
  have hbefore : wordOn c.assembly.nextId c.assembly.journal = [] := by
    cases hl with
    | silent _ hw => exact hw
    | follows _ hp _ => omega
  cases c.perform_course (.createProposal o d) with
  | refused _ _ hs | quiet _ _ hs | muted _ _ hs => exact (hsame hs rfl).elim
  | unfunded _ _ hs => exact (hsame hs rfl).elim
  | @done c' events _ _ hc hwrite _ hs =>
    rw [hs, hc.hides_eq_false_iff h rfl]
    refine iff_of_true ?_ hwrite
    show _ ∈ wordOn _ (c'.assembly.journal ++ events)
    rw [hc.journal, wordOn_append, hbefore, List.nil_append]
    rcases hc.first_turn h (Int.le_refl _) with ⟨hnext, -⟩ | ⟨-, -, hone, -⟩
    · have := hc.nextId_eq
      simp only [Call.creates, if_true] at this
      omega
    · exact hone.symm ▸ List.mem_cons_self
  | untold hc hwrite _ hs =>
    rw [hs, hc.hides_eq_false_iff h rfl, hc.journal, hbefore]
    exact iff_of_false List.not_mem_nil hwrite
  | halfway hh => cases hh

/-! ### Histories of a voter -/

theorem Change.ballot_turn (hc : c.Change call c' events notices a) (p : Int) (v : Account) :
    (wordOf p v events = [] ∧ c'.assembly.ballot? p v = c.assembly.ballot? p v) ∨
      (wordOf p v events = [.voteCast] ∧ (c'.assembly.ballot? p v).isSome = true) ∨
      (wordOf p v events = [.voteWithdrawn] ∧ (c.assembly.ballot? p v).isSome = true ∧
        c'.assembly.ballot? p v = none) ∨
      (wordOf p v events = [.fundsClaimed] ∧ (c.assembly.ballot? p v).isSome = true ∧
        c'.assembly.Spent p v) := by
  have hnone : (∀ e ∈ events, e.pair? = none) → wordOf p v events = [] := fun h =>
    wordOf_of_ne fun e he hpv => by cases (h e he).symm.trans hpv
  cases hc with
  | registered | unregistered | created | cancelled | listed | closed =>
    exact .inl ⟨hnone (List.forall_mem_singleton.2 rfl), rfl⟩
  | voted ho hp hf =>
    rcases (Assembly.planVote_eq_ok_iff.1 hp).ballot_turn p v with hnil | hcast | hwithdrawn
    · exact .inl hnil
    · exact .inr (.inl hcast)
    · exact .inr (.inr (.inl hwithdrawn))
  | @claimed o q voter b ho hb hf =>
    have hlive := (checkClaim_eq_ok_iff.1 hb).2.2
    have hv : o.account = voter := (Origin.signer_eq_ok_iff.1 ho).2.1
    by_cases hpv : p = q ∧ v = voter
    · obtain ⟨rfl, rfl⟩ := hpv
      have hspent := (Change.claimed ho hb hf).spent_of_claimed (p := p) (v := o.account)
        List.mem_cons_self
      rw [hv] at hspent
      refine .inr (.inr (.inr ⟨?_, hlive ▸ rfl, hspent⟩))
      rw [hv]
      simp [wordOf, Event.pair?, Event.kind]
    · refine .inl ⟨wordOf_of_ne fun e he hep => hpv ?_, ?_⟩
      · rw [List.mem_singleton.1 he, hv] at hep
        cases hep
        exact ⟨rfl, rfl⟩
      · exact (c.assembly.ballot?_dropBallot q voter p v).trans (if_neg hpv)

/-- The history of a voter's lock, by whether it is live or spent. -/
inductive Voiced (s : Assembly) (p : Int) (v : Account) : Prop
  | idle (hb : s.ballot? p v = none) (hw : wordOf p v s.journal ∈ withdrawing.matches')
  | live (hb : (s.ballot? p v).isSome = true)
      (hw : wordOf p v s.journal ∈ (withdrawing * casting).matches')
  | spent (hs : s.Spent p v) (hw : wordOf p v s.journal ∈
      (withdrawing * (casting * RegularExpression.char EventKind.fundsClaimed)).matches')

theorem Voiced.told (hv : Voiced c.assembly p v) (h : c.assembly.Orderly)
    (hc : c.Change call c' events notices a) : Voiced (c'.assembly.append events) p v := by
  have hword : wordOf p v (c'.assembly.append events).journal =
      wordOf p v c.assembly.journal ++ wordOf p v events := by
    show wordOf p v (c'.assembly.journal ++ events) = _
    rw [hc.journal, wordOf_append]
  cases hv with
  | spent hs hw =>
    obtain ⟨hspent, hsilent⟩ := hc.spent_stays h hs
    rw [wordOf_of_ne hsilent, List.append_nil] at hword
    exact .spent (hspent.congr rfl rfl) (hword ▸ hw)
  | idle hb hw =>
    rcases hc.ballot_turn p v with ⟨he, hsame⟩ | ⟨he, hsome⟩ | ⟨-, hlive, -⟩ | ⟨-, hlive, -⟩
    · rw [he, List.append_nil] at hword
      exact .idle (hsame.trans hb) (hword ▸ hw)
    · rw [he] at hword
      exact .live hsome (hword ▸ withdrawing_cast hw)
    · rw [hb] at hlive
      cases hlive
    · rw [hb] at hlive
      cases hlive
  | live hb hw =>
    rcases hc.ballot_turn p v with ⟨he, hsame⟩ | ⟨he, hsome⟩ | ⟨he, -, hgone⟩ | ⟨he, -, hspent⟩
    · rw [he, List.append_nil] at hword
      exact .live ((congrArg Option.isSome hsame).trans hb) (hword ▸ hw)
    · rw [he] at hword
      exact .live hsome (hword ▸ casting_cast hw)
    · rw [he] at hword
      exact .idle hgone (hword ▸ casting_withdraw hw)
    · rw [he] at hword
      exact .spent (hspent.congr rfl rfl) (hword ▸ casting_claim hw)

theorem Voiced.congr {s s' : Assembly} (hv : Voiced s p v) (hj : s'.journal = s.journal)
    (hc : s'.closed? p = s.closed? p) (hb : s'.ballot? p v = s.ballot? p v) : Voiced s' p v := by
  cases hv with
  | idle hn hw => exact .idle (hb.trans hn) (hj.symm ▸ hw)
  | live hs hw => exact .live ((congrArg Option.isSome hb).trans hs) (hj.symm ▸ hw)
  | spent hs hw =>
    exact .spent ⟨(congrArg Option.isSome hc).trans hs.closed, hb.trans hs.gone⟩ (hj.symm ▸ hw)

theorem Voiced.mem_ofVoter {s : Assembly} (hv : Voiced s p v) :
    wordOf p v s.journal ∈ ofVoter.matches' := by
  cases hv with
  | idle _ hw => exact withdrawing_mem_ofVoter hw
  | live _ hw => exact casting_mem_ofVoter hw
  | spent _ hw => exact claimed_mem_ofVoter hw

theorem perform_voiced [Host] (h : c.assembly.Orderly) (hp : Value.isWritable p = true)
    (hv : Voiced c.assembly p v) (call : Call) : Voiced (c.perform call).state.assembly p v := by
  refine perform_assembly (P := (Voiced · p v)) call hv ?_ ?_ ?_
  · exact fun hc => hv.told h hc
  · intro _ _ _ _ hc hn
    obtain ⟨hclosed, hballots⟩ := hc.eq_of_untold h hn hp
    exact hv.congr hc.journal hclosed (hballots v)
  · intro _ hh
    have hframe := hh.frame (hh.ne_of_isWritable h hp)
    exact hv.congr hh.journal (hh.closed?_eq p) (hframe.2 v)

/-- Nothing is ever said of an id that cannot be written. -/
theorem perform_mute [Host] (h : c.assembly.Orderly) (hp : ¬ Value.isWritable p = true)
    (hv : wordOf p v c.assembly.journal = []) (call : Call) :
    wordOf p v (c.perform call).state.assembly.journal = [] := by
  refine perform_told (P := fun s => wordOf p v s.journal = []) call hv ?_ ?_ ?_
  · intro c' events _ _ hc hn
    show wordOf p v (c'.assembly.journal ++ events) = []
    rw [hc.journal, wordOf_append, hv, List.nil_append]
    exact wordOf_of_ne fun e he hpv => hp (hc.isWritable h hn (hc.pair?_events he hpv).1)
  · intro _ _ _ _ hc _
    rw [hc.journal]
    exact hv
  · intro _ hh
    rw [hh.journal]
    exact hv

theorem Reachable.wordOf_mem [Host] {limits : Limits} {clock : Clock} (h : Reachable limits clock c)
    (p : Int) (v : Account) : wordOf p v c.assembly.journal ∈ ofVoter.matches' := by
  by_cases hp : Value.isWritable p = true
  · refine (h.keeps (P := (Voiced · p v)) (fun _ ho hv call => perform_voiced ho hp hv call)
      (fun _ _ hv => hv.congr rfl rfl rfl) ?_).mem_ofVoter
    exact .idle rfl (nil_mem_star _)
  · have hmute := h.keeps (P := fun s => wordOf p v s.journal = [])
      (fun _ ho hv call => perform_mute ho hp hv call) (fun _ _ hv => hv) rfl
    rw [hmute]
    exact withdrawing_mem_ofVoter (nil_mem_star _)

/-! ### Any run with a clock that never moves back -/

theorem Lawful.word_cases {s : Assembly} (hl : Lawful s p) (hw : wordOn p s.journal ≠ []) :
    ∃ since, .proposalCreated ∉ since ∧ since ∈ sinceCreation.matches' ∧
      (wordOn p s.journal = since ∨ wordOn p s.journal = .proposalCreated :: since) := by
  cases hl with
  | silent _ hnil => exact absurd hnil hw
  | @follows since _ _ hf =>
    exact ⟨since, hf.not_created, hf.placed.mem_sinceCreation, hf.word_eq⟩

/-- With any funds, whatever the host does to them between two steps, and with a clock that never
moves back, what the journal says of a proposal is in order if and only if it tells its creation,
and in order but for its creation if not; a creation is told, at once or never, if and only if
nothing in it is too large to be written. What the journal says of a voter is in order, and the
stage of a stored proposal never goes back. -/
theorem onward_histories [Host] (limits : Limits) (clock : Clock) {funds : σ}
    (h : (Chamber.empty limits clock funds).Onward c) (p : Int) :
    (wordOn p c.assembly.journal ≠ [] →
      (wordOn p c.assembly.journal ∈ ofProposal.matches' ↔
        .proposalCreated ∈ wordOn p c.assembly.journal) ∧
      (.proposalCreated ∉ wordOn p c.assembly.journal →
        .proposalCreated :: wordOn p c.assembly.journal ∈ ofProposal.matches')) ∧
      (∀ o d, c.assembly.nextId = p →
        (c.perform (.createProposal o d)).state.assembly.nextId = p + 1 →
        ∀ c', (c.perform (.createProposal o d)).state.Later c' →
          (.proposalCreated ∈ wordOn p c'.assembly.journal ↔
            c.hides (.call (.createProposal o d)) = false)) ∧
      (∀ v, wordOf p v c.assembly.journal ∈ ofVoter.matches') ∧
      ∀ c', c.Onward c' → ∀ x y, c.assembly.proposal? p = some x →
        c'.assembly.proposal? p = some y →
          x.stageAt c.assembly.now ≤ y.stageAt c'.assembly.now := by
  have horderly := h.reachable.orderly
  have hlawful : ∀ q, Lawful c.assembly q := fun q =>
    h.lawful (.empty limits clock) (.empty limits clock q)
  refine ⟨fun hw => ?_, fun o d hp hn c' hc' => ?_, h.reachable.wordOf_mem p,
    fun c' hc' x y hx hy => hc'.stageAt_le horderly hx hy⟩
  · obtain ⟨since, hnot, hmem, he | he⟩ := (hlawful p).word_cases hw
    · rw [he]
      exact ⟨⟨mem_of_char_mul, fun hin => absurd hin hnot⟩, fun _ => cons_mem hmem⟩
    · rw [he]
      exact ⟨⟨mem_of_char_mul, fun _ => cons_mem hmem⟩, fun hout => absurd List.mem_cons_self hout⟩
  · subst hp
    rw [hc'.created_mem_iff (perform_orderly horderly _) (by omega)]
    exact perform_create_mem_iff horderly (hlawful _) o d hn

/-- A vote is cast, raised, withdrawn, cast again and claimed after the close. -/
theorem onward_histories_round :
    let start := Chamber.empty .standard .zero (⟨20, false, []⟩ : HostFunds)
    let c := start.run [
      .call (.registerVoter .root Round.ann),
      .call (.createProposal ⟨Round.ann, false⟩ ⟨.bytes [], .kind .publicVote, .none, 1, 101⟩),
      .call (.setAccountList .root 0 (.accounts [Round.bob])),
      .advance 1,
      .call (.vote ⟨Round.ann, false⟩ 0 (.bool true) (.int 2)),
      .call (.vote ⟨Round.ann, false⟩ 0 (.bool true) (.int 3)),
      .call (.vote ⟨Round.ann, false⟩ 0 (.bool true) (.int 0)),
      .call (.vote ⟨Round.ann, false⟩ 0 (.bool false) (.int 1)),
      .advance 101,
      .call (.closeProposal .root 0),
      .call (.claim ⟨Round.ann, false⟩ 0)]
    start.Onward c ∧
      wordOn 0 c.assembly.journal = [.proposalCreated, .accountListSet, .voteCast, .voteCast,
        .voteWithdrawn, .voteCast, .proposalClosed, .fundsClaimed] ∧
      wordOn 0 c.assembly.journal ∈ ofProposal.matches' ∧
      wordOf 0 Round.ann c.assembly.journal ∈ ofVoter.matches' := by
  intro start c
  have honward : start.Onward c := Onward.refl.run (by decide)
  have hword : wordOn 0 c.assembly.journal = [.proposalCreated, .accountListSet, .voteCast,
    .voteCast, .voteWithdrawn, .voteCast, .proposalClosed, .fundsClaimed] := by decide
  have h := onward_histories .standard .zero honward 0
  have hcreated : .proposalCreated ∈ wordOn 0 c.assembly.journal := by
    rw [hword]
    decide
  exact ⟨honward, hword, (h.1 (List.ne_nil_of_mem hcreated)).1.2 hcreated, h.2.2.1 Round.ann⟩

/-- A proposal whose last block is too large to be written takes a vote. The journal, which does not
tell its creation, tells the vote. -/
theorem hidden_creation_takes_votes :
    let start := Chamber.empty wideLimits .zero (Ledger.create Round.symbol Round.opening).state
    let steps : List LedgerStep := [
      .step (.call (.registerVoter .root Round.ann)),
      .step (.call (.createProposal ⟨Round.ann, false⟩
        ⟨.bytes [], .kind .publicVote, .none, 0, Value.writtenBound⟩)),
      .step (.call (.vote ⟨Round.ann, false⟩ 0 (.bool true) (.int 3)))]
    start.Forward steps ∧
      wordOn 0 (start.ledgerRun steps).assembly.journal = [.voteCast] ∧
      ¬ [EventKind.voteCast] ∈ ofProposal.matches' := by
  refine ⟨?_, ?_, ?_⟩
  · decide +kernel
  · decide +kernel
  · exact fun hmem => absurd (mem_of_char_mul hmem) (by decide)

end Chamber

end QuadraticVoting
