import Mathlib.Data.List.Forall2
import QuadraticVoting.Proofs.Atomicity
import QuadraticVoting.Proofs.Closures

/-!
# What the operator is told

The journal is for the host and the log for the operator, and they are written in different places:
a notice is given where a change is made, and its event is added where the call ends. They tell the
same all the same. `Log.Notice.Tells` relates a notice to the event that it goes with, about the
same proposal and the same account.

A change is told by notices that go with its events, one by one (`Change.tells`). What the log has
of a call, but for what the funds add to it, follows from the course of the call
(`Chamber.perform_reports`): these notices, or nothing where there is nothing to do, or, where the
call fails, nothing but an alarm about a defect. For a chamber that a host comes to, all that was
logged on the way goes with its journal (`Chamber.logged_reports`).
-/

namespace QuadraticVoting

namespace Log.Notice

/-- A notice and an event tell the same. -/
inductive Tells : Notice → Event → Prop
  | voterRegistered (who : Account) : Tells (.voterRegistered who) (.voterRegistered who)
  | voterUnregistered (who : Account) : Tells (.voterUnregistered who) (.voterUnregistered who)
  | proposalCreated (p : Int) (creator : Account) (data : List UInt8) (kind : Kind)
      (accounts : AccountList) (start stop : Int) :
      Tells (.proposalCreated p creator kind start stop)
        (.proposalCreated p creator data kind accounts start stop)
  | proposalCancelled (p : Int) : Tells (.proposalCancelled p) (.proposalCancelled p)
  | accountListSet (p : Int) (accounts : AccountList) (kind : Kind) :
      Tells (.accountListSet p accounts.size kind) (.accountListSet p accounts)
  | voteCast (b : Ballot) (tally : Tally) (delta : Int) :
      Tells (.voteCast b tally) (.voteCast b delta)
  | voteWithdrawn (voter : Account) (p released : Int) (tally : Tally) :
      Tells (.voteWithdrawn voter p released tally) (.voteWithdrawn p voter released)
  | proposalClosed (p : Int) (auto : Bool) (tally : Tally) :
      Tells (.proposalClosed p auto tally) (.proposalClosed p tally tally.hasMajority auto)
  | fundsClaimed (voter : Account) (p amount : Int) :
      Tells (.fundsClaimed voter p amount) (.fundsClaimed p voter amount)

theorem Tells.level_eq {n : Notice} {e : Event} (h : n.Tells e) : n.level = .info := by
  cases h <;> rfl

/-- The loggers of what governs. -/
def governors : List String := ["qvote.governance.registry", "qvote.governance.proposals",
  "qvote.governance.policy", "qvote.governance.voting", "qvote.governance.claims",
  "qvote.governance.runtime"]

theorem Tells.logger_mem {n : Notice} {e : Event} (h : n.Tells e) : n.logger ∈ governors := by
  cases h <;> simp [logger, governors]

theorem forall_of_tells {P : Notice → Prop} (hp : ∀ n e, n.Tells e → P n) {notices : List Notice}
    {events : List Event} (h : List.Forall₂ Tells notices events) : ∀ n ∈ notices, P n := by
  induction h with
  | nil => exact nofun
  | cons hn _ ih => exact List.forall_mem_cons.2 ⟨hp _ _ hn, ih⟩

/-- The notices that a log at level `INFO` takes. -/
def audible (notices : List Notice) : List Notice :=
  notices.filter fun n => Level.info.number ≤ n.level.number

theorem audible_of_tells {notices : List Notice} {events : List Event}
    (h : List.Forall₂ Tells notices events) : audible notices = notices := by
  refine List.filter_eq_self.2 fun n hn => ?_
  rw [forall_of_tells (fun _ _ => Tells.level_eq) h n hn]
  decide

end Log.Notice

open Log.Notice (Tells audible)

theorem Call.audible_alarm (call : Call) (f : Fault) : audible (call.alarm f) = call.alarm f := by
  unfold alarm
  split <;> rfl

namespace Chamber

variable {σ : Type} [FundLock σ] {c c' : Chamber σ} {call : Call}

/-! ### Changes -/

theorem tells_closing {plan : VotePlan} (hid : plan.proposal.id = plan.ballot.proposal) :
    List.Forall₂ Tells plan.closingNotices plan.closingEvents := by
  unfold VotePlan.closingNotices VotePlan.closingEvents
  split
  · next hc =>
    have hm : plan.tally.hasMajority = true := (Bool.and_eq_true_iff.1 hc).2
    have h := Tells.proposalClosed plan.ballot.proposal true plan.tally
    rw [hm] at h
    rw [hid]
    exact .cons h .nil
  · exact .nil

theorem tells_notice (plan : VotePlan) : Tells plan.notice plan.event := by
  unfold VotePlan.notice VotePlan.event
  split
  · exact .voteCast ..
  · exact .voteWithdrawn ..

/-- The notices of a change go with its events, one by one. -/
theorem Change.tells {events : List Event} {notices : List Log.Notice} {a : Answer}
    (hc : c.Change call c' events notices a) (h : c.assembly.Orderly) :
    List.Forall₂ Tells notices events := by
  cases hc with
  | registered => exact .cons (.voterRegistered _) .nil
  | unregistered => exact .cons (.voterUnregistered _) .nil
  | created ho hx =>
    obtain ⟨-, data, accounts, kind, -, -, -, -, rfl⟩ := Assembly.draftProposal_eq_ok_iff.1 hx
    exact .cons (.proposalCreated ..) .nil
  | cancelled => exact .cons (.proposalCancelled _) .nil
  | listed hx hl =>
    rw [(h.proposals (checkEditor_eq_ok_iff.1 hx).1).id_eq]
    exact .cons (.accountListSet ..) .nil
  | closed hx hc =>
    rw [(h.proposals (Assembly.checkClose_eq_ok_iff.1 hx).1).id_eq]
    exact .cons (.proposalClosed ..) .nil
  | @voted _ _ _ _ _ plan ho hp hf =>
    have hplan := Assembly.planVote_eq_ok_iff.1 hp
    have hid := (h.proposals hplan.proposal_eq).id_eq.trans hplan.ballot_proposal.symm
    rw [VotePlan.voteEvents_outcome]
    exact .cons (tells_notice plan) (tells_closing hid)
  | claimed ho hb hf =>
    rw [(Origin.signer_eq_ok_iff.1 ho).2.1]
    exact .cons (.fundsClaimed ..) .nil

/-- A change that cannot be told is not begun to be told. -/
theorem Change.given_eq_nil {events : List Event} {notices : List Log.Notice} {a : Answer}
    (hc : c.Change call c' events notices a) (h : c.assembly.Orderly)
    (hn : ¬ ∀ n ∈ notices, n.Writable) : Log.Notice.given notices = [] := by
  have hsingle : ∀ n : Log.Notice, (¬ ∀ m ∈ [n], m.Writable) → Log.Notice.given [n] = [] :=
    fun n hn => Log.Notice.given_of_not_writable (fun h => hn (List.forall_mem_singleton.2 h)) []
  cases hc with
  | registered | unregistered | created | cancelled | listed | closed | claimed =>
    exact hsingle _ hn
  | voted ho hp hf =>
    have hplan := Assembly.planVote_eq_ok_iff.1 hp
    exact Log.Notice.given_of_not_writable
      (fun hw => hn ((hplan.isWritable_notices h).2 ((hplan.isWritable_notice h).1 hw))) _

/-! ### Calls -/

/-- What the assembly gives notice of in a call. -/
def ownNotices [Host] (c : Chamber σ) (call : Call) : List Log.Notice :=
  (c.perform call).notices.drop (c.fundNotices call).length

/-- What a call adds to the journal. -/
def newEvents [Host] (c : Chamber σ) (call : Call) : List Event :=
  (c.perform call).state.assembly.journal.drop c.assembly.journal.length

omit [FundLock σ] in
/-- A call has nothing to do: an account is registered already, or a proposal closed. -/
def idle (c : Chamber σ) : Call → Bool
  | .registerVoter _ who => c.assembly.registry.contains who
  | .closeProposal _ p => (c.assembly.closed? p).isSome
  | .unregisterVoter .. | .createProposal .. | .cancelProposal .. | .setAccountList .. | .vote ..
  | .claim .. => false

omit [FundLock σ] in
theorem Quiet.idle {a : Answer} (hq : c.Quiet call a) : c.idle call = true := by
  cases hq with
  | registered ho hg hm => exact Registry.contains_iff.2 hm
  | closed hx hc =>
    have hsome := Assembly.closed?_eq_some_iff.2 ⟨(Assembly.checkClose_eq_ok_iff.1 hx).1, hc⟩
    exact Option.isSome_iff_exists.2 ⟨_, hsome⟩

end Chamber

namespace Answer

/-- A vote that has closed its proposal. -/
def autoClosed : Answer → Bool
  | outcome o => o.autoClosed
  | done | flag _ | id _ | amount _ => false

/-- How many events go with the answer of a call that has something to do. -/
def eventCount (a : Answer) : Nat := if a.autoClosed then 2 else 1

end Answer

namespace Chamber

variable {σ : Type} [FundLock σ] {c c' : Chamber σ} {call : Call}

theorem Change.not_idle {events : List Event} {notices : List Log.Notice} {a : Answer}
    (hc : c.Change call c' events notices a) : c.idle call = false := by
  cases hc with
  | registered ho hg hn => exact eq_false_of_ne_true fun h => hn (Registry.contains_iff.1 h)
  | closed hx hc =>
    rw [idle, Assembly.closed?_of_open (Assembly.checkClose_eq_ok_iff.1 hx).1 hc]
    rfl
  | unregistered | created | cancelled | listed | voted | claimed => rfl

theorem Change.length_events {events : List Event} {notices : List Log.Notice} {a : Answer}
    (hc : c.Change call c' events notices a) : events.length = a.eventCount := by
  cases hc with
  | @voted _ _ _ _ _ plan =>
    rw [VotePlan.voteEvents_outcome, List.length_cons, VotePlan.closingEvents]
    unfold Answer.eventCount
    show _ = if plan.closes then 2 else 1
    split <;> rfl
  | registered | unregistered | created | cancelled | listed | closed | claimed => rfl

theorem fundNotices_of_checks {f : Fault} (hx : c.checks call = .error f) :
    c.fundNotices call = [] := by
  cases call with
  | vote o p aye weight =>
    cases ho : o.signer with
    | error f => simp only [fundNotices, ho]
    | ok voter =>
      rw [checks, ho] at hx
      cases hp : c.assembly.planVote (FundLock.spendable c.funds) p voter aye.truthy weight
          c.assembly.now with
      | error f => simp only [fundNotices, ho, hp]
      | ok plan => cases hx.symm.trans (discard_ok hp)
  | claim o p =>
    cases ho : o.signer with
    | error f => simp only [fundNotices, ho]
    | ok voter =>
      rw [checks, ho] at hx
      cases hb : checkClaim c.assembly voter p with
      | error f => simp only [fundNotices, ho, hb]
      | ok b => cases hx.symm.trans (discard_ok hb)
  | registerVoter | unregisterVoter | createProposal | cancelProposal | setAccountList
  | closeProposal => rfl

theorem Quiet.fundNotices_eq {a : Answer} (hq : c.Quiet call a) : c.fundNotices call = [] := by
  cases hq <;> rfl

/-- What a call gives notice of and adds to the journal, given its reply. -/
structure Reports (c : Chamber σ) (call : Call) (r : Reply (Chamber σ) Answer)
    (own : List Log.Notice) (events : List Event) : Prop where
  notices : r.notices = c.fundNotices call ++ own
  journal : r.state.assembly.journal = c.assembly.journal ++ events
  /-- A call that goes well tells in its notices what it adds to the journal. -/
  ok : ∀ a, r.result = .ok a → List.Forall₂ Tells (audible own) events ∧
    events.length = if c.idle call then 0 else a.eventCount
  /-- A call that fails adds nothing, and alarms the operator of a defect. -/
  error : ∀ f, r.result = .error f → events = [] ∧ audible own = call.alarm f

theorem Reports.of_error {r : Reply (Chamber σ) Answer} {f : Fault} (own : List Log.Notice)
    (hr : r.result = .error f) (ht : r.notices = c.fundNotices call ++ own)
    (hj : r.state.assembly.journal = c.assembly.journal) (ho : audible own = call.alarm f) :
    c.Reports call r own [] where
  notices := ht
  journal := hj.trans (List.append_nil _).symm
  ok a h := nomatch hr.symm.trans h
  error g h := by
    cases hr.symm.trans h
    exact ⟨rfl, ho⟩

section AnyHost

variable [Host]

theorem exists_reports (h : c.assembly.Orderly) (call : Call) :
    ∃ own events, c.Reports call (c.perform call) own events := by
  have hmute : audible [] = call.alarm (.excess .integer) := (alarm_excess call).symm
  cases c.perform_course call with
  | refused hx hr hs ht =>
    refine ⟨_, _, .of_error (call.alarm _) hr ?_ (by rw [hs]) (call.audible_alarm _)⟩
    rw [ht, fundNotices_of_checks hx, List.nil_append]
  | @quiet a n hq hr hs ht hd =>
    refine ⟨[n], [], ht.trans (by rw [hq.fundNotices_eq]; rfl), ?_, fun b hb => ?_, fun f hf => ?_⟩
    · rw [hs, List.append_nil]
    · rw [hq.idle, audible, List.filter_cons_of_neg (by rw [hd]; decide)]
      exact ⟨.nil, rfl⟩
    · cases hr.symm.trans hf
  | muted hq hr hs ht =>
    refine ⟨_, _, .of_error [] hr ?_ (by rw [hs]) hmute⟩
    rw [ht, hq.fundNotices_eq]
    rfl
  | unfunded hu hr hs ht =>
    exact ⟨_, _, .of_error _ hr ht (by rw [hs]; rfl) (call.audible_alarm _)⟩
  | @done c' events notices a hc hn hr hs ht =>
    have htells := hc.tells h
    refine ⟨notices, events, ht, ?_, fun b hb => ?_, fun f hf => ?_⟩
    · rw [hs]
      exact congrArg (· ++ events) hc.journal
    · cases hr.symm.trans hb
      rw [Log.Notice.audible_of_tells htells, hc.not_idle, if_neg Bool.false_ne_true]
      exact ⟨htells, hc.length_events⟩
    · cases hr.symm.trans hf
  | untold hc hn hr hs ht =>
    rw [hc.given_eq_nil h hn] at ht
    exact ⟨_, _, .of_error _ hr ht (by rw [hs]; exact hc.journal) hmute⟩
  | halfway hh hr hs ht =>
    refine ⟨_, _, .of_error [] hr ?_ (by rw [hs]; exact hh.journal) hmute⟩
    rw [ht, List.append_nil]

/-- There is nothing else in the log or in the journal. -/
theorem perform_reports (h : c.assembly.Orderly) (call : Call) :
    c.Reports call (c.perform call) (c.ownNotices call) (c.newEvents call) := by
  obtain ⟨own, events, hr⟩ := exists_reports h call
  have hown : c.ownNotices call = own := by
    rw [ownNotices, hr.notices, List.drop_left]
  have hevents : c.newEvents call = events := by
    rw [newEvents, hr.journal, List.drop_left]
  rwa [hown, hevents]

/-! ### Runs -/

/-- What the assembly gives notice of in a step. -/
def stepNotices (c : Chamber σ) : Step → List Log.Notice
  | .call x => c.ownNotices x
  | .setBlock n => (c.setBlock n).notices
  | .advance n => (c.advance n).notices

omit [FundLock σ] in
theorem audible_setBlock (c : Chamber σ) (n : Int) : audible (c.setBlock n).notices = [] := by
  unfold setBlock onClock Clock.set
  dsimp only
  split
  · rfl
  · rw [Reply.within_announce, Reply.notices_announce, Log.Notice.given, List.takeWhile_cons]
    split <;> rfl

omit [FundLock σ] in
theorem audible_advance (c : Chamber σ) (n : Int) : audible (c.advance n).notices = [] := by
  unfold advance onClock Clock.advance
  split <;> rfl

/-- A host can come from `c` to the other chamber, and on the way the assembly gives these
notices. -/
inductive Logged (c : Chamber σ) : List Log.Notice → Chamber σ → Prop
  | refl : Logged c [] c
  | step {log : List Log.Notice} {d : Chamber σ} (h : Logged c log d) (s : Step) :
      Logged c (log ++ d.stepNotices s) (d.step s).state
  | host {log : List Log.Notice} {d : Chamber σ} (h : Logged c log d) (funds : σ) :
      Logged c log (d.withFunds funds)

theorem Logged.reachable {limits : Limits} {clock : Clock} {funds : σ} {log : List Log.Notice}
    (h : (Chamber.empty limits clock funds).Logged log c) : Reachable limits clock c := by
  induction h with
  | refl => exact .start funds
  | step _ s ih => exact ih.step s
  | host _ funds ih => exact ih.host funds

/-- What the assembly gives notice of in a run. -/
def runNotices (c : Chamber σ) : List Step → List Log.Notice
  | [] => []
  | s :: rest => c.stepNotices s ++ runNotices (c.step s).state rest

theorem Logged.run {log : List Log.Notice} (h : c.Logged log c') (steps : List Step) :
    c.Logged (log ++ c'.runNotices steps) (c'.run steps) := by
  induction steps generalizing log c' with
  | nil => exact (List.append_nil log).symm ▸ h
  | cons s rest ih =>
    rw [runNotices, ← List.append_assoc]
    exact ih (h.step s)

end AnyHost

/-- The notices at level `INFO` itself. -/
def infos (notices : List Log.Notice) : List Log.Notice := notices.filter (·.level = .info)

theorem infos_audible (notices : List Log.Notice) : infos (audible notices) = infos notices := by
  unfold infos audible
  rw [List.filter_filter]
  refine List.filter_congr fun n _ => ?_
  cases n.level <;> rfl

theorem infos_of_tells {notices : List Log.Notice} {events : List Event}
    (h : List.Forall₂ Tells notices events) : infos notices = notices :=
  List.filter_eq_self.2 fun n hn =>
    decide_eq_true (Log.Notice.forall_of_tells (fun _ _ => Tells.level_eq) h n hn)

theorem infos_alarm (call : Call) (f : Fault) : infos (call.alarm f) = [] := by
  unfold Call.alarm
  split <;> rfl

theorem Reports.tells {r : Reply (Chamber σ) Answer} {own : List Log.Notice}
    {events : List Event} (h : c.Reports call r own events) :
    List.Forall₂ Tells (infos own) events := by
  rw [← infos_audible]
  cases hr : r.result with
  | ok a =>
    have htells := (h.ok a hr).1
    rwa [infos_of_tells htells]
  | error f =>
    obtain ⟨rfl, ho⟩ := h.error f hr
    rw [ho, infos_alarm]
    exact .nil

theorem step_tells [Host] (h : c.assembly.Orderly) (s : Step) :
    ∃ events, (c.step s).state.assembly.journal = c.assembly.journal ++ events ∧
      List.Forall₂ Tells (infos (c.stepNotices s)) events := by
  cases s with
  | call x =>
    have hr := perform_reports h x
    exact ⟨c.newEvents x, hr.journal, hr.tells⟩
  | setBlock n =>
    refine ⟨[], (List.append_nil _).symm, ?_⟩
    rw [← infos_audible, stepNotices, audible_setBlock]
    exact .nil
  | advance n =>
    refine ⟨[], (List.append_nil _).symm, ?_⟩
    rw [← infos_audible, stepNotices, audible_advance]
    exact .nil

theorem Reports.logger_mem {r : Reply (Chamber σ) Answer} {own : List Log.Notice}
    {events : List Event} (h : c.Reports call r own events) :
    ∀ n ∈ audible own, n.logger ∈ Log.Notice.governors := by
  cases hr : r.result with
  | ok a => exact Log.Notice.forall_of_tells (fun _ _ => Tells.logger_mem) (h.ok a hr).1
  | error f =>
    rw [(h.error f hr).2, Call.alarm]
    split
    · exact List.forall_mem_singleton.2 (by simp [Log.Notice.logger, Log.Notice.governors])
    · exact nofun

/-- What has been logged at level `INFO` on the way to a chamber goes with its journal, one by one
and in the same order. And a call to the chamber that goes well logs at that level what it adds to
the journal, and nothing if it has nothing to do; one that fails adds nothing, and logs nothing but
an alarm if it fails of a defect. -/
theorem logged_reports [Host] {limits : Limits} {clock : Clock} {funds : σ} {log : List Log.Notice}
    (h : (Chamber.empty limits clock funds).Logged log c) :
    List.Forall₂ Tells (infos log) c.assembly.journal ∧
      ∀ call, c.Reports call (c.perform call) (c.ownNotices call) (c.newEvents call) ∧
        ∀ n ∈ audible (c.ownNotices call), n.logger ∈ Log.Notice.governors := by
  refine ⟨?_, fun call => ?_⟩
  · induction h with
    | refl => exact .nil
    | step hd s ih =>
      obtain ⟨events, hjournal, htells⟩ := step_tells hd.reachable.orderly s
      rw [hjournal, infos, List.filter_append]
      exact List.rel_append ih htells
    | host hd funds ih => exact ih
  · have hr := perform_reports h.reachable.orderly call
    exact ⟨hr, hr.logger_mem⟩

/-- A vote that closes its proposal is logged twice; registering again, closing again and a vote
that comes too late are not logged. -/
theorem logged_reports_closing_vote :
    let start := Chamber.empty .standard .zero (⟨20, false, []⟩ : HostFunds)
    let ann : Origin := ⟨Round.ann, false⟩
    let steps : List Step := [
      .call (.registerVoter .root Round.ann),
      .call (.registerVoter ann Round.ann),
      .call (.createProposal ann ⟨.bytes [1], .kind .privateVote, .accounts [Round.ann], 1, 101⟩),
      .advance 1,
      .call (.vote ann 0 (.bool true) (.int 2)),
      .call (.vote ann 0 (.bool true) (.int 3)),
      .call (.closeProposal .root 0)]
    let c := start.run steps
    start.Logged (start.runNotices steps) c ∧
      infos (start.runNotices steps) = [.voterRegistered Round.ann,
        .proposalCreated 0 Round.ann .privateVote 1 101,
        .voteCast ⟨0, Round.ann, true, 2⟩ ⟨4, 4⟩, .proposalClosed 0 true ⟨4, 4⟩] ∧
      List.Forall₂ Tells (infos (start.runNotices steps)) c.assembly.journal := by
  intro start ann steps c
  have hlogged : start.Logged (start.runNotices steps) c := by
    have h := (Logged.refl (c := start)).run steps
    rwa [List.nil_append] at h
  exact ⟨hlogged, by decide +kernel, (logged_reports hlogged).1⟩

end Chamber

end QuadraticVoting
