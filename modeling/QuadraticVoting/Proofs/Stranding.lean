import QuadraticVoting.Proofs.Later

/-!
# Stranded ballots

A live ballot is stranded when its proposal is gone: nobody can close that proposal any more, so
what the ballot locks is never released. A run strands a ballot if and only if one of its
cancellations takes a proposal away from under a live ballot (`exists_stranded_iff`).

A cancellation asks no more than that the proposal is pending, which is a matter of the clock. While
the clock only moves forward (`Chamber.Forward`), a proposal that has ballots has started and is
never pending again. If the host sets the clock back to before the start, it is, and the ballots on
it do not keep it from being cancelled.
-/

namespace QuadraticVoting

namespace Assembly

/-- A live ballot whose proposal is gone. -/
structure Stranded (s : Assembly) (p : Int) (v : Account) (b : Ballot) : Prop where
  live : s.ballot? p v = some b
  gone : s.proposal? p = none

/-- Every live ballot lies on a stored proposal with such a start. -/
def Anchored (s : Assembly) (start : Int → Prop) : Prop :=
  ∀ p v b, s.ballot? p v = some b → ∃ x, s.proposal? p = some x ∧ start x.start

namespace Anchored

variable {s : Assembly} {start : Int → Prop}

theorem empty (limits : Limits) (clock : Clock) : (Assembly.empty limits clock).Anchored start :=
  fun _ _ _ h => nomatch h

theorem mono (h : s.Anchored start) {start' : Int → Prop} (hs : ∀ n, start n → start' n) :
    s.Anchored start' := fun p v b hb => by
  obtain ⟨x, hx, hstart⟩ := h p v b hb
  exact ⟨x, hx, hs _ hstart⟩

theorem not_stranded (h : s.Anchored start) {p : Int} {v : Account} {b : Ballot} :
    ¬ s.Stranded p v b := fun hs => by
  obtain ⟨x, hx, -⟩ := h p v b hs.live
  cases hs.gone.symm.trans hx

theorem putProposal (h : s.Anchored start) {p : Int} {x y : Proposal}
    (hx : s.proposal? p = some x) (hy : y.start = x.start) :
    (s.putProposal p y).Anchored start := by
  intro q v b hb
  obtain ⟨z, hz, hstart⟩ := h q v b hb
  rw [proposal?_putProposal]
  split
  · next e =>
    subst e
    cases hx.symm.trans hz
    exact ⟨y, rfl, hy ▸ hstart⟩
  · exact ⟨z, hz, hstart⟩

theorem create (h : s.Anchored start) {x : Proposal} {n : Int} (hx : s.proposal? x.id = none) :
    Anchored { s with proposals := s.proposals.insert x.id x, nextId := n } start := by
  intro q v b hb
  obtain ⟨z, hz, hstart⟩ := h q v b hb
  refine ⟨z, (s.proposal?_insert x n q).trans ((if_neg fun e => ?_).trans hz), hstart⟩
  rw [e, hx] at hz
  cases hz

theorem cancel (h : s.Anchored start) {p : Int} (hp : ∀ v, s.ballot? p v = none) :
    Anchored { s with proposals := s.proposals.erase p } start := by
  intro q v b hb
  obtain ⟨z, hz, hstart⟩ := h q v b hb
  refine ⟨z, (OrdMap.get?_erase_of_ne _ fun e => ?_).trans hz, hstart⟩
  cases (hp v).symm.trans (e ▸ hb)

theorem dropBallot (h : s.Anchored start) (p : Int) (v : Account) :
    (s.dropBallot p v).Anchored start := by
  intro q w b hb
  rw [ballot?_dropBallot] at hb
  split at hb
  · cases hb
  · rw [proposal?_dropBallot]
    exact h q w b hb

theorem write (h : s.Anchored start) {spendable : Account → Int} {p : Int} {voter : Account}
    {aye : Bool} {weight : Value} {now : Int} {plan : VotePlan}
    (hp : Planned s spendable p voter aye weight now plan) (hs : ∀ n ≤ now, start n) :
    (s.write plan).Anchored start := by
  intro q v b hb
  rw [ballot?_write, hp.ballot_proposal] at hb
  rw [proposal?_write, hp.ballot_proposal]
  by_cases hq : q = p
  · exact ⟨plan.counted, if_pos hq, hs _ hp.started⟩
  · rw [if_neg fun e => hq e.1] at hb
    rw [if_neg hq]
    exact h q v b hb

theorem carry (h : s.Anchored start) {spendable : Account → Int} {p : Int} {voter : Account}
    {aye : Bool} {weight : Value} {now : Int} {plan : VotePlan}
    (hp : Planned s spendable p voter aye weight now plan) (hs : ∀ n ≤ now, start n) :
    (s.carry plan).Anchored start := by
  have hw := h.write hp hs
  unfold Assembly.carry
  split
  · exact hw.putProposal (x := plan.counted) ((s.proposal?_write plan _).trans (if_pos rfl)) rfl
  · exact hw

end Anchored

end Assembly

namespace Chamber

/-! ### Calls -/

section Call

variable {σ : Type} [FundLock σ] {c c' : Chamber σ} {call : Call}

/-- A cancellation that takes a proposal away from under a live ballot. -/
def Strands (c : Chamber σ) : Call → Prop
  | .cancelProposal o p =>
    (∃ x, c.assembly.checkCancel o p c.assembly.now = .ok x) ∧
      ∃ v, c.assembly.hasVoted p v = true
  | .registerVoter .. | .unregisterVoter .. | .createProposal .. | .setAccountList .. | .vote ..
  | .closeProposal .. | .claim .. => False

theorem Change.anchored {events : List Event} {notices : List Log.Notice} {a : Answer}
    (hc : c.Change call c' events notices a) (h : c.assembly.Orderly) {start : Int → Prop}
    (ha : c.assembly.Anchored start) (hn : ¬ c.Strands call)
    (hs : ∀ n ≤ c.assembly.now, start n) : c'.assembly.Anchored start := by
  cases hc with
  | registered | unregistered => exact ha
  | created ho hx =>
    obtain ⟨-, data, accounts, kind, -, -, -, -, rfl⟩ := Assembly.draftProposal_eq_ok_iff.1 hx
    exact ha.create (h.proposal?_of_le (Int.le_refl _))
  | cancelled hx =>
    refine ha.cancel fun v => ?_
    by_contra hv
    exact hn ⟨⟨_, hx⟩, v, Option.isSome_iff_ne_none.2 hv⟩
  | listed hx hl => exact ha.putProposal (checkEditor_eq_ok_iff.1 hx).1 rfl
  | closed hx hc => exact ha.putProposal (Assembly.checkClose_eq_ok_iff.1 hx).1 rfl
  | voted ho hp hf => exact ha.carry (Assembly.planVote_eq_ok_iff.1 hp) hs
  | @claimed o p voter b ho hb hf => exact ha.dropBallot p voter

variable [Host]

theorem perform_anchored (h : c.assembly.Orderly) {start : Int → Prop}
    (ha : c.assembly.Anchored start) (hn : ¬ c.Strands call)
    (hs : ∀ n ≤ c.assembly.now, start n) :
    (c.perform call).state.assembly.Anchored start := by
  refine perform_assembly (P := (·.Anchored start)) call ha ?_ ?_ ?_
  · intro _ _ _ _ hc
    exact hc.anchored h ha hn hs
  · intro _ _ _ _ hc _
    exact hc.anchored h ha hn hs
  · intro _ hh
    cases hh with
    | vote ho hp hf hw hcl => exact ha.write (Assembly.planVote_eq_ok_iff.1 hp) hs

/-- A call that strands a ballot does so whether its notice can be written or not. -/
theorem Strands.exists_stranded (hs : c.Strands call) :
    ∃ p v b, (c.perform call).state.assembly.Stranded p v b := by
  cases call with
  | cancelProposal o p =>
    obtain ⟨⟨x, hx⟩, v, hv⟩ := hs
    obtain ⟨b, hb⟩ := Option.isSome_iff_exists.1 hv
    obtain ⟨⟨told, hstate⟩, -⟩ := (Change.cancelled hx).perform_eq nofun
    refine ⟨p, v, b, ?_⟩
    rw [hstate]
    exact ⟨hb, OrdMap.get?_erase_self ..⟩
  | registerVoter | unregisterVoter | createProposal | setAccountList | vote | closeProposal
  | claim => exact absurd hs id

omit [Host] in
theorem Change.stranded_stays {events : List Event} {notices : List Log.Notice} {a : Answer}
    (hc : c.Change call c' events notices a) (h : c.assembly.Orderly) {p : Int} {v : Account}
    {b : Ballot} (hs : c.assembly.Stranded p v b) : c'.assembly.Stranded p v b := by
  have hp : call.proposal? ≠ some p := by
    intro hp
    obtain ⟨x, hx⟩ := hc.exists_proposal hp
    cases hs.gone.symm.trans hx
  have hissued := (h.ballots hs.live).issued
  have hframe := hc.frame h hp
  exact ⟨(hframe.2.2 v).trans hs.live, (hframe.1 (by omega)).trans hs.gone⟩

theorem Later.stranded_stays (h : c.Later c') (ho : c.assembly.Orderly) {p : Int} {v : Account}
    {b : Ballot} (hs : c.assembly.Stranded p v b) : c'.assembly.Stranded p v b := by
  refine h.keeps (P := (·.Stranded p v b)) ho (fun d hd hs call => ?_)
    (fun _ _ hs => ⟨hs.live, hs.gone⟩) hs
  refine perform_assembly (P := (·.Stranded p v b)) call hs ?_ ?_ ?_
  · intro _ _ _ _ hc
    have hs := hc.stranded_stays hd hs
    exact ⟨hs.live, hs.gone⟩
  · intro _ _ _ _ hc _
    exact hc.stranded_stays hd hs
  · intro _ hh
    have hp : call.proposal? ≠ some p := by
      intro hp
      obtain ⟨x, hx⟩ := hh.exists_proposal hp
      cases hs.gone.symm.trans hx
    have hframe := hh.frame hp
    exact ⟨(hframe.2 v).trans hs.live, hframe.1.trans hs.gone⟩

end Call

/-! ### Runs -/

section AnyHost

variable [Host]

/-- Whether a run strands a ballot. -/
def StrandsIn (c : Chamber Ledger) : List LedgerStep → Prop
  | [] => False
  | s :: rest => (∃ call, s = .step (.call call) ∧ c.Strands call) ∨
    StrandsIn (c.ledgerStep s).state rest

/-- Whether the clock never moves back in a run. -/
def Forward (c : Chamber Ledger) : List LedgerStep → Prop
  | [] => True
  | s :: rest => c.assembly.now ≤ (c.ledgerStep s).state.assembly.now ∧
    Forward (c.ledgerStep s).state rest

instance decidableForward (c : Chamber Ledger) :
    (steps : List LedgerStep) → Decidable (c.Forward steps)
  | [] => .isTrue trivial
  | s :: rest => @instDecidableAnd _ _ _ (decidableForward (c.ledgerStep s).state rest)

end AnyHost

variable {c : Chamber Ledger} {steps : List LedgerStep}

section AnyHost

variable [Host]

theorem Later.ledgerStep (c : Chamber Ledger) (s : LedgerStep) :
    c.Later (c.ledgerStep s).state := by
  cases s with
  | step s => exact .step .refl s
  | mint | lock | unlock => exact .host .refl _

theorem Later.ledgerRun (c : Chamber Ledger) (steps : List LedgerStep) :
    c.Later (c.ledgerRun steps) := by
  induction steps generalizing c with
  | nil => exact .refl
  | cons s rest ih => exact (Later.ledgerStep c s).trans (ih _)

theorem ledgerStep_anchored {s : LedgerStep} (h : c.Regular) {start : Int → Prop}
    (ha : c.assembly.Anchored start) (hn : ∀ call, s = .step (.call call) → ¬ c.Strands call)
    (hs : ∀ n ≤ c.assembly.now, start n) : (c.ledgerStep s).state.assembly.Anchored start := by
  cases s with
  | step s =>
    cases s with
    | call x => exact perform_anchored h.orderly ha (hn x rfl) hs
    | setBlock | advance => exact ha
  | mint | lock | unlock => exact ha

/-- A run strands a ballot if and only if one is stranded after it: a stranded ballot stays. -/
theorem exists_stranded_iff (h : c.Regular) (ha : c.assembly.Anchored fun _ => True) :
    (∃ p v b, (c.ledgerRun steps).assembly.Stranded p v b) ↔ c.StrandsIn steps := by
  induction steps generalizing c with
  | nil => exact ⟨fun ⟨_, _, _, hs⟩ => ha.not_stranded hs, False.elim⟩
  | cons s rest ih =>
    have hstep := ledgerStep_regular h s
    by_cases hs : ∃ call, s = .step (.call call) ∧ c.Strands call
    · refine ⟨fun _ => .inl hs, fun _ => ?_⟩
      obtain ⟨call, rfl, hcall⟩ := hs
      obtain ⟨p, v, b, hb⟩ := hcall.exists_stranded
      exact ⟨p, v, b, (Later.ledgerRun _ rest).stranded_stays hstep.orderly hb⟩
    · have hkept := ledgerStep_anchored (s := s) h ha (fun call e hcall => hs ⟨call, e, hcall⟩)
        fun _ _ => trivial
      exact (ih hstep hkept).trans ⟨.inr, fun hr => hr.resolve_left hs⟩

omit [Host] in
theorem not_strands (ha : c.assembly.Anchored (· ≤ c.assembly.now)) (call : Call) :
    ¬ c.Strands call := by
  cases call with
  | cancelProposal o p =>
    rintro ⟨⟨x, hx⟩, v, hv⟩
    obtain ⟨b, hb⟩ := Option.isSome_iff_exists.1 hv
    obtain ⟨hstored, -, hpending⟩ := Assembly.checkCancel_eq_ok_iff.1 hx
    obtain ⟨y, hy, hstarted⟩ := ha p v b hb
    cases hstored.symm.trans hy
    have := (Proposal.isPendingAt_iff.1 hpending).2
    omega
  | registerVoter | unregisterVoter | createProposal | setAccountList | vote | closeProposal
  | claim => exact id

/-- While the clock only moves forward, ballots lie on proposals that have started. -/
theorem Forward.anchored (hf : c.Forward steps) (h : c.Regular)
    (ha : c.assembly.Anchored (· ≤ c.assembly.now)) :
    (c.ledgerRun steps).assembly.Anchored (· ≤ (c.ledgerRun steps).assembly.now) ∧
      ¬ c.StrandsIn steps := by
  induction steps generalizing c with
  | nil => exact ⟨ha, id⟩
  | cons s rest ih =>
    have hnot := not_strands ha
    have hstep := ledgerStep_anchored (s := s) h ha (fun call _ => hnot call) fun _ hn => hn
    have hrest := ih hf.2 (ledgerStep_regular h s) (hstep.mono fun n hn => Int.le_trans hn hf.1)
    refine ⟨hrest.1, fun hs => ?_⟩
    rcases hs with ⟨call, -, hcall⟩ | hs
    · exact hnot call hcall
    · exact hrest.2 hs

/-- After a run with any calls, any moves of the clock and anything done on the ledger itself, a
live ballot is without its proposal if and only if a cancellation of the run took the proposal away
from under a ballot. None does while the clock never moves back. Once stranded, a ballot is
stranded for ever, and nobody can claim it. -/
theorem ledgerRun_stranded_iff (limits : Limits) (clock : Clock) (symbol : Text)
    (opening : List (Account × Int)) (steps : List LedgerStep) :
    let start := Chamber.empty limits clock (Ledger.create symbol opening).state
    let c := start.ledgerRun steps
    ((∃ p v b, c.assembly.Stranded p v b) ↔ start.StrandsIn steps) ∧
      (start.Forward steps → ¬ start.StrandsIn steps) ∧
      ∀ p v b, c.assembly.Stranded p v b → ∀ c', c.Later c' →
        c'.assembly.Stranded p v b ∧ ∀ o, ∃ f, (c'.perform (.claim o p)).result = .error f := by
  intro start c
  have h : start.Regular := .empty limits clock symbol opening
  refine ⟨exists_stranded_iff h (.empty limits clock), fun hf => ?_, fun p v b hs c' hc' => ?_⟩
  · exact (hf.anchored h (.empty limits clock)).2
  · have hstays := hc'.stranded_stays (ledgerRun_regular h steps).orderly hs
    refine ⟨hstays, fun o => ?_⟩
    obtain ⟨f, hf, -⟩ := perform_claim_refused (c := c') (o := o) (p := p) fun b hb => by
      obtain ⟨-, ⟨x, hx, -⟩, -⟩ := checkClaim_eq_ok_iff.1 hb
      cases hstays.gone.symm.trans hx
    exact ⟨f, hf⟩

end AnyHost

/-- A vote at block 1, the clock set back to block 0, and a cancellation: the call goes well, and
the ballot and what it locks are left behind. -/
theorem cancel_strands_ballot :
    let c := (Round.start.ledgerRun [
      .step (.call (.registerVoter .root Round.ann)),
      .step (.call (.createProposal ⟨Round.ann, false⟩
        ⟨.bytes [], .kind .publicVote, .none, 1, 101⟩)),
      .step (.advance 1),
      .step (.call (.vote ⟨Round.ann, false⟩ 0 (.bool true) (.int 3))),
      .step (.setBlock 0)])
    let r := c.perform (.cancelProposal ⟨Round.ann, false⟩ 0)
    r.result = .ok .done ∧ r.state.assembly.Stranded 0 Round.ann ⟨0, Round.ann, true, 3⟩ ∧
      r.state.funds.frozenOf Round.ann = 9 :=
  ⟨by decide, ⟨by decide, by decide⟩, by decide⟩

end Chamber

end QuadraticVoting
