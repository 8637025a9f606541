import QuadraticVoting.Proofs.Closures
import QuadraticVoting.Proofs.Stranding

/-!
# Recovery

While the clock only moves forward, nothing that is locked is out of reach. From wherever a host has
come, `Assembly.recovery` leads to an assembly without live ballots and to funds with nothing
frozen: move the clock past all windows, and then for each live ballot close its proposal, register
its voter again, and claim.

`Chamber.Recovering c todo` holds all the while, with the ballots still to be claimed. It needs that
every live ballot lies on a stored proposal that has started (`Forward.anchored`), that its voter
can sign (`Assembly.Signed`), and that no more is frozen than what the live ballots lock.

A close or a claim under an id too large to be written (`Reachable.isWritable`) would do its work
all the same, but fail.
-/

namespace QuadraticVoting

/-- The steps that release what a ballot locks, once its proposal is over. -/
def Ballot.release (b : Ballot) : List Step := [
  .call (.closeProposal .root b.proposal),
  .call (.registerVoter .root b.voter),
  .call (.claim ⟨b.voter, false⟩ b.proposal)]

namespace Assembly

/-! ### The live ballots -/

theorem mem_liveBallots_iff {s : Assembly} {b : Ballot} :
    b ∈ s.liveBallots ↔ ∃ p v, s.ballot? p v = some b := by
  unfold liveBallots
  rw [List.mem_flatMap]
  constructor
  · rintro ⟨m, hm, hb⟩
    obtain ⟨p, hp⟩ := OrdMap.mem_values_iff.1 hm
    obtain ⟨v, hv⟩ := OrdMap.mem_values_iff.1 hb
    exact ⟨p, v, by rw [ballot?, hp]; exact hv⟩
  · rintro ⟨p, v, h⟩
    obtain ⟨m, hp, hv⟩ := Option.bind_eq_some_iff.1 h
    exact ⟨m, OrdMap.mem_values_iff.2 ⟨p, hp⟩, OrdMap.mem_values_iff.2 ⟨v, hv⟩⟩

theorem Orderly.ballot?_of_mem {s : Assembly} (h : s.Orderly) {b : Ballot}
    (hb : b ∈ s.liveBallots) : s.ballot? b.proposal b.voter = some b := by
  obtain ⟨p, v, hlive⟩ := mem_liveBallots_iff.1 hb
  have hfiled := h.ballots hlive
  rw [hfiled.proposal_eq, hfiled.voter_eq]
  exact hlive

theorem Orderly.nodup_liveBallots {s : Assembly} (h : s.Orderly) : s.liveBallots.Nodup := by
  have hfiled : ∀ {e v b}, e ∈ s.ballots.entries → e.2.get? v = some b →
      b.proposal = e.1 ∧ b.voter = v := by
    intro e v b he hb
    have hlive : s.ballot? e.1 v = some b := by
      rw [ballot?, OrdMap.get?, OrdMap.valueAt_of_mem s.ballots.nodup he]
      exact hb
    exact ⟨(h.ballots hlive).proposal_eq, (h.ballots hlive).voter_eq⟩
  unfold liveBallots OrdMap.values
  rw [List.flatMap_map, List.nodup_flatMap]
  refine ⟨fun e he => OrdMap.nodup_values Ballot.voter fun hb => (hfiled he hb).2, ?_⟩
  refine (List.pairwise_map.1 s.ballots.nodup).imp_of_mem fun {e e'} he he' hne => ?_
  -- A ballot under both keys would be on both proposals.
  intro b hb hb'
  obtain ⟨v, hv⟩ := OrdMap.mem_values_iff.1 hb
  obtain ⟨v', hv'⟩ := OrdMap.mem_values_iff.1 hb'
  exact hne ((hfiled he hv).1.symm.trans (hfiled he' hv').1)

theorem Orderly.mem_liveBallots_dropBallot {s : Assembly} (h : s.Orderly) {b b' : Ballot}
    (hb : b ∈ s.liveBallots) :
    b' ∈ (s.dropBallot b.proposal b.voter).liveBallots ↔ b' ∈ s.liveBallots ∧ b' ≠ b := by
  have hdrop := s.ballot?_dropBallot b.proposal b.voter
  constructor
  · intro hmem
    obtain ⟨p, v, hv⟩ := mem_liveBallots_iff.1 hmem
    rw [hdrop] at hv
    split at hv
    · cases hv
    · next hne =>
      refine ⟨mem_liveBallots_iff.2 ⟨p, v, hv⟩, fun e => hne ?_⟩
      have hfiled := h.ballots hv
      exact ⟨e ▸ hfiled.proposal_eq.symm, e ▸ hfiled.voter_eq.symm⟩
  · rintro ⟨hmem, hne⟩
    have hlive := h.ballot?_of_mem hmem
    refine mem_liveBallots_iff.2 ⟨_, _, (hdrop ..).trans ((if_neg fun e => hne ?_).trans hlive)⟩
    rw [e.1, e.2, h.ballot?_of_mem hb] at hlive
    exact (Option.some.inj hlive).symm

/-- Every live ballot is of an account that can sign. -/
def Signed (s : Assembly) : Prop := ∀ p v b, s.ballot? p v = some b → v.isGiven = true

theorem Signed.write {s : Assembly} (h : s.Signed) {spendable : Account → Int} {p : Int}
    {voter : Account} {aye : Bool} {weight : Value} {now : Int} {plan : VotePlan}
    (hp : Planned s spendable p voter aye weight now plan) (hg : voter.isGiven = true) :
    (s.write plan).Signed := by
  intro q v b hb
  rw [ballot?_write, hp.ballot_voter] at hb
  split at hb
  · next e => exact e.2 ▸ hg
  · exact h q v b hb

/-! ### The way back -/

/-- How many blocks are left until all windows are over. -/
def remaining (s : Assembly) : Int :=
  s.proposals.values.foldr (fun x n => max (x.stop + 1 - s.now) n) 0

/-- The steps after which nothing is locked any more. -/
def recovery (s : Assembly) : List Step :=
  .advance s.remaining :: s.liveBallots.flatMap Ballot.release

theorem remaining_nonneg (s : Assembly) : 0 ≤ s.remaining := by
  unfold remaining
  induction s.proposals.values with
  | nil => exact Int.le_refl 0
  | cons x l ih => exact Int.le_trans ih (Int.le_max_right ..)

theorem stop_lt_remaining {s : Assembly} {p : Int} {x : Proposal} (hx : s.proposal? p = some x) :
    x.stop < s.now + s.remaining := by
  have hmem : x ∈ s.proposals.values := OrdMap.mem_values_iff.2 ⟨p, hx⟩
  suffices x.stop + 1 - s.now ≤ s.remaining by omega
  unfold remaining
  generalize s.proposals.values = l at hmem ⊢
  induction l with
  | nil => cases hmem
  | cons y l ih =>
    rw [List.foldr_cons]
    rcases List.mem_cons.1 hmem with rfl | hmem
    · exact Int.le_max_left ..
    · exact Int.le_trans (ih hmem) (Int.le_max_right ..)

/-- What a step of the way back is to answer: a claim, what the ballot locked at its beginning; any
other step, that it went well. -/
def Answered (s : Assembly) : Step → Except Fault Answer → Prop
  | .call (.claim o p), r => ∃ b, s.ballot? p o.account = some b ∧ r = .ok (.amount b.locked)
  | .call (.registerVoter ..), r | .call (.unregisterVoter ..), r | .call (.createProposal ..), r
  | .call (.cancelProposal ..), r | .call (.setAccountList ..), r | .call (.vote ..), r
  | .call (.closeProposal ..), r | .setBlock _, r | .advance _, r => r.isOk = true

end Assembly

namespace Chamber

section Funds

variable [Host] {σ : Type} [FundLock σ] {c c' : Chamber σ} {call : Call}

/-- What the steps of a run answer, in order. -/
def results (c : Chamber σ) : List Step → List (Except Fault Answer)
  | [] => []
  | s :: rest => (c.step s).result :: results (c.step s).state rest

theorem results_append (c : Chamber σ) (steps rest : List Step) :
    c.results (steps ++ rest) = c.results steps ++ (c.run steps).results rest := by
  induction steps generalizing c with
  | nil => rfl
  | cons s steps ih => exact congrArg ((c.step s).result :: ·) (ih _)

omit [Host] in
theorem Change.signed {events : List Event} {notices : List Log.Notice} {a : Answer}
    (hc : c.Change call c' events notices a) (h : c.assembly.Signed) : c'.assembly.Signed := by
  cases hc with
  | registered | unregistered | created | cancelled | listed | closed => exact h
  | voted ho hp hf =>
    intro q v b hb
    rw [Assembly.ballot?_carry] at hb
    exact h.write (Assembly.planVote_eq_ok_iff.1 hp) (Origin.signer_eq_ok_iff.1 ho).2.2 q v b hb
  | claimed ho hb hf =>
    intro q v b hlive
    rw [Assembly.ballot?_dropBallot] at hlive
    split at hlive
    · cases hlive
    · exact h q v b hlive

theorem Later.signed (h : c.Later c') (ho : c.assembly.Orderly) (hs : c.assembly.Signed) :
    c'.assembly.Signed := by
  refine h.keeps ho (fun d hd hs call => ?_) (fun _ _ hs => hs) hs
  refine perform_assembly call hs ?_ ?_ ?_
  · intro _ _ _ _ hc
    exact hc.signed hs
  · intro _ _ _ _ hc _
    exact hc.signed hs
  · intro _ hh
    cases hh with
    | vote ho hp hf hn hcl =>
      exact hs.write (Assembly.planVote_eq_ok_iff.1 hp) (Origin.signer_eq_ok_iff.1 ho).2.2

theorem perform_registerVoter_known {o : Origin} {who : Account} (ho : o.requireFor who = .ok ())
    (hg : who.isGiven = true) (hm : who ∈ c.assembly.registry.voters) :
    (c.perform (.registerVoter o who)).result = .ok (.flag false) ∧
      (c.perform (.registerVoter o who)).state = c := by
  have hwork : (Reply.check c (o.requireFor who) fun _ => c.onRegistry (·.register who)) =
      ⟨.ok false, c, [.voterKnown who]⟩ := by
    rw [ho]
    simp [onRegistry, Registry.register, hg, hm, Reply.within, withAssembly]
  have h := conclude_of_ok "register_voter" o
    (fun new => if new then [Event.voterRegistered who] else []) Answer.flag
    (congrArg Reply.result hwork)
  refine ⟨h.1, h.2.trans ?_⟩
  rw [hwork]
  exact append_nil c

theorem perform_registerVoter_root {who : Account} (hg : who.isGiven = true) :
    (∃ told, (c.perform (.registerVoter .root who)).state = (c.withAssembly
      { c.assembly with registry := c.assembly.registry.add who }).append told) ∧
      (c.perform (.registerVoter .root who)).result.isOk = true := by
  have ho : Origin.root.requireFor who = .ok () := Origin.requireFor_eq_ok_iff.2 (.inl rfl)
  by_cases hm : who ∈ c.assembly.registry.voters
  · obtain ⟨hr, hs⟩ := perform_registerVoter_known ho hg hm
    have hadd : c.assembly.registry.add who = c.assembly.registry := dif_pos hm
    refine ⟨⟨[], ?_⟩, hr ▸ rfl⟩
    rw [hs, hadd, append_nil]
    rfl
  · obtain ⟨hs, hr⟩ := (Change.registered ho hg hm).perform_eq fun _ hh => by cases hh
    refine ⟨hs, ?_⟩
    rw [hr (by simp [Log.Notice.Writable, Log.Notice.integers])]
    rfl

end Funds

/-! ### Releasing one ballot -/

/-- On the way back, with these ballots still to be claimed. -/
structure Recovering (c : Chamber Ledger) (todo : List Ballot) : Prop where
  regular : c.Regular
  even : ∀ a, c.slack a = 0
  nodup : todo.Nodup
  mem_iff : ∀ {b}, b ∈ todo ↔ b ∈ c.assembly.liveBallots
  given : ∀ {b}, b ∈ todo → b.voter.isGiven = true
  ended : ∀ {b}, b ∈ todo → ∃ x, c.assembly.proposal? b.proposal = some x ∧
    x.start ≤ c.assembly.now ∧ x.stop < c.assembly.now

namespace Recovering

variable {c : Chamber Ledger} {todo : List Ballot} {b : Ballot}

theorem live (h : c.Recovering todo) (hb : b ∈ todo) :
    c.assembly.ballot? b.proposal b.voter = some b :=
  h.regular.orderly.ballot?_of_mem (h.mem_iff.1 hb)

section AnyHost

variable [Host]

/-- A call that leaves the ballots still to be claimed and all windows as they are. -/
theorem perform (h : c.Recovering todo) {call : Call} {rest : List Ballot}
    (hrest : rest.Sublist todo)
    (hmem : ∀ {b}, b ∈ rest ↔ b ∈ (c.perform call).state.assembly.liveBallots)
    (hwindows : ∀ {p x}, c.assembly.proposal? p = some x →
      ∃ y, (c.perform call).state.assembly.proposal? p = some y ∧
        y.start = x.start ∧ y.stop = x.stop) : (c.perform call).state.Recovering rest where
  regular := ledgerStep_regular h.regular (.step (.call call))
  even a := (slack_perform h.regular call a).trans (h.even a)
  nodup := h.nodup.sublist hrest
  mem_iff := hmem
  given hb := h.given (hrest.subset hb)
  ended hb := by
    obtain ⟨x, hx, hstart, hstop⟩ := h.ended (hrest.subset hb)
    obtain ⟨y, hy, hys, hye⟩ := hwindows hx
    have hnow : (c.perform call).state.assembly.now = c.assembly.now :=
      congrArg Clock.block (c.perform_clock call)
    exact ⟨y, hy, by omega, by omega⟩

theorem close (h : c.Recovering todo) (hb : b ∈ todo) :
    let r := c.perform (.closeProposal .root b.proposal)
    r.state.Recovering todo ∧ (r.state.assembly.closed? b.proposal).isSome = true ∧
      (Value.isWritable b.proposal = true → r.result.isOk = true) := by
  dsimp only
  obtain ⟨x, hx, hstart, hstop⟩ := h.ended hb
  cases hc : x.isClosed with
  | true =>
    have hclosed := Assembly.closed?_eq_some_iff.2 ⟨hx, hc⟩
    rw [state_perform_close hclosed .root, hclosed]
    refine ⟨h, rfl, fun hp => ?_⟩
    rw [result_perform_close hclosed rfl hp]
    rfl
  | false =>
    have hcheck : c.assembly.checkClose .root b.proposal c.assembly.now = .ok x := by
      refine Assembly.checkClose_eq_ok_iff.2 ⟨hx, rfl, .inl ?_⟩
      rw [Proposal.stageAt, hc, if_neg Bool.false_ne_true, if_neg (by omega), if_neg (by omega)]
    have hchange := Change.closed hcheck hc
    obtain ⟨⟨told, hs⟩, hr⟩ := hchange.perform_eq fun _ hh => by cases hh
    have hput := fun q => c.assembly.proposal?_putProposal b.proposal q { x with status := .closed }
    refine ⟨h.perform (.refl _) ?_ fun {p y} hy => ?_, ?_, fun hp => ?_⟩
    · rw [hs]
      exact h.mem_iff
    · rw [hs]
      by_cases hq : p = b.proposal
      · subst hq
        cases hx.symm.trans hy
        exact ⟨_, (hput _).trans (if_pos rfl), rfl, rfl⟩
      · exact ⟨y, (hput p).trans ((if_neg hq).trans hy), rfl, rfl⟩
    · rw [hs]
      have hstored := (hput b.proposal).trans (if_pos rfl)
      exact Option.isSome_iff_exists.2 ⟨_, Assembly.closed?_eq_some_iff.2 ⟨hstored, rfl⟩⟩
    · rw [hr ((hchange.writable_iff h.regular.orderly).2 (List.forall_mem_singleton.2 hp))]
      rfl

theorem register (h : c.Recovering todo) (hb : b ∈ todo) :
    let r := c.perform (.registerVoter .root b.voter)
    r.state.Recovering todo ∧ r.state.assembly.proposals = c.assembly.proposals ∧
      b.voter ∈ r.state.assembly.registry.voters ∧ r.result.isOk = true := by
  dsimp only
  obtain ⟨⟨told, hs⟩, hr⟩ := perform_registerVoter_root (c := c) (h.given hb)
  refine ⟨h.perform (.refl _) ?_ fun {p x} hx => ⟨x, ?_, rfl, rfl⟩, ?_, ?_, hr⟩
  · rw [hs]
    exact h.mem_iff
  · rw [hs]
    exact hx
  · rw [hs]
    rfl
  · rw [hs]
    exact Registry.mem_add.2 (.inr rfl)

theorem claim (h : c.Recovering (b :: todo))
    (hclosed : (c.assembly.closed? b.proposal).isSome = true)
    (hvoter : b.voter ∈ c.assembly.registry.voters) :
    let r := c.perform (.claim ⟨b.voter, false⟩ b.proposal)
    r.state.Recovering todo ∧
      (Value.isWritable b.proposal = true → r.result = .ok (.amount b.locked)) := by
  dsimp only
  have hlive := h.live List.mem_cons_self
  obtain ⟨x, hx⟩ := Option.isSome_iff_exists.1 hclosed
  have hsigner : (⟨b.voter, false⟩ : Origin).signer = .ok b.voter :=
    Origin.signer_eq_ok_iff.2 ⟨rfl, rfl, h.given List.mem_cons_self⟩
  have hcheck : checkClaim c.assembly b.voter b.proposal = .ok b :=
    checkClaim_eq_ok_iff.2 ⟨hvoter, ⟨x, Assembly.closed?_eq_some_iff.1 hx⟩, hlive⟩
  have hbacked : c.Backed := ⟨h.regular, fun a => Int.le_of_eq (h.even a).symm⟩
  have hchange := Change.claimed hsigner hcheck (hbacked.unlock_ok hlive)
  obtain ⟨⟨told, hs⟩, hr⟩ := hchange.perform_eq fun _ hh => by cases hh
  refine ⟨h.perform (List.sublist_cons_self ..) (fun {b'} => ?_) fun {p y} hy => ⟨y, ?_, rfl, rfl⟩,
    fun hp => ?_⟩
  · rw [hs]
    show b' ∈ todo ↔ b' ∈ (c.assembly.dropBallot b.proposal b.voter).liveBallots
    rw [h.regular.orderly.mem_liveBallots_dropBallot (h.mem_iff.1 List.mem_cons_self),
      ← h.mem_iff, List.mem_cons]
    have hnot := (List.nodup_cons.1 h.nodup).1
    exact ⟨fun hb' => ⟨.inr hb', fun e => hnot (e ▸ hb')⟩, fun hb' => hb'.1.resolve_left hb'.2⟩
  · rw [hs]
    exact (Assembly.proposal?_dropBallot ..).trans hy
  · exact hr ((hchange.writable_iff h.regular.orderly).2 (List.forall_mem_singleton.2 hp))

theorem release (h : c.Recovering (b :: todo)) :
    (c.run b.release).Recovering todo ∧ ∀ s : Assembly,
      s.ballot? b.proposal b.voter = some b → Value.isWritable b.proposal = true →
        List.Forall₂ s.Answered b.release (c.results b.release) := by
  obtain ⟨h₁, hclosed, hr₁⟩ := h.close List.mem_cons_self
  obtain ⟨h₂, hproposals, hvoter, hr₂⟩ := h₁.register List.mem_cons_self
  have hkept := Assembly.closed?_congr (p := b.proposal) (congrArg (·.get? b.proposal) hproposals)
  obtain ⟨h₃, hr₃⟩ := h₂.claim (hkept ▸ hclosed) hvoter
  refine ⟨h₃, fun s hlive hp => ?_⟩
  exact .cons (hr₁ hp) (.cons hr₂ (.cons ⟨b, hlive, hr₃ hp⟩ .nil))

/-- Ballot by ballot, until none is left. -/
theorem releaseAll (h : c.Recovering todo) :
    (c.run (todo.flatMap Ballot.release)).Recovering [] ∧ ∀ s : Assembly,
      (∀ b ∈ todo, s.ballot? b.proposal b.voter = some b ∧ Value.isWritable b.proposal = true) →
        List.Forall₂ s.Answered (todo.flatMap Ballot.release)
          (c.results (todo.flatMap Ballot.release)) := by
  induction todo generalizing c with
  | nil => exact ⟨h, fun _ _ => .nil⟩
  | cons b rest ih =>
    obtain ⟨hfirst, hanswers⟩ := h.release
    obtain ⟨hrest, hothers⟩ := ih hfirst
    rw [List.flatMap_cons, run_append, results_append]
    refine ⟨hrest, fun s hs => List.rel_append ?_ ?_⟩
    · exact hanswers s (hs b List.mem_cons_self).1 (hs b List.mem_cons_self).2
    · exact hothers s fun b' hb' => hs b' (List.mem_cons_of_mem b hb')

end AnyHost

theorem nothing_locked (h : c.Recovering []) :
    c.assembly.liveBallots = [] ∧ ∀ a, c.funds.frozenOf a = 0 := by
  have hnone : c.assembly.liveBallots = [] :=
    List.eq_nil_iff_forall_not_mem.2 fun b hb => List.not_mem_nil (h.mem_iff.2 hb)
  refine ⟨hnone, fun a => ?_⟩
  have heven := h.even a
  rw [slack, Assembly.ballotsOf, hnone] at heven
  exact Int.sub_eq_zero.1 heven

end Recovering

/-! ### The way back as a whole -/

/-- Once the clock is past all windows, the ballots can be released one by one. -/
theorem recovering_advance [Host] {c : Chamber Ledger} (h : c.Regular) (he : ∀ a, c.slack a = 0)
    (hs : c.assembly.Signed) (ha : c.assembly.Anchored (· ≤ c.assembly.now)) :
    let r := c.step (.advance c.assembly.remaining)
    r.state.Recovering c.assembly.liveBallots ∧ r.result.isOk = true := by
  intro r
  have hnonneg := c.assembly.remaining_nonneg
  have hclock : c.assembly.clock.advance c.assembly.remaining = .done
      ⟨c.assembly.now + c.assembly.remaining, Int.add_nonneg c.assembly.clock.nonneg hnonneg⟩
      (c.assembly.now + c.assembly.remaining) := dif_neg (Int.not_lt.2 hnonneg)
  have hnow : r.state.assembly.now = c.assembly.now + c.assembly.remaining :=
    congrArg (·.state.block) hclock
  refine ⟨⟨ledgerStep_regular h (.step (.advance _)), fun a => ?_, h.orderly.nodup_liveBallots,
    .rfl, fun hb => hs _ _ _ (h.orderly.ballot?_of_mem hb), fun hb => ?_⟩, ?_⟩
  · exact (slack_step h (.advance _) a).trans (he a)
  · obtain ⟨x, hx, hstart⟩ := ha _ _ _ (h.orderly.ballot?_of_mem hb)
    have hstop := Assembly.stop_lt_remaining hx
    rw [hnow]
    exact ⟨x, hx, by omega, hstop⟩
  · show ((c.assembly.clock.advance c.assembly.remaining).result.map Answer.amount).isOk = true
    rw [hclock]
    rfl

/-- While the clock only moves forward and nobody locks or unlocks on the ledger itself, all funds
can be had back from wherever the host has come: the way back leaves no live ballot and nothing
frozen. Every step of it goes well, and every claim gives back what the ballot locked, when the
ids can be written, as the first `Value.writtenBound` of them are. -/
theorem ledgerRun_recoverable [Host] (limits : Limits) (clock : Clock) (symbol : Text)
    (opening : List (Account × Int)) (steps : List LedgerStep)
    (hd : ∀ s ∈ steps, s.isLock = false ∧ s.isUnlock = false)
    (hf : (Chamber.empty limits clock (Ledger.create symbol opening).state).Forward steps) :
    let c := (Chamber.empty limits clock (Ledger.create symbol opening).state).ledgerRun steps
    let c' := c.run c.assembly.recovery
    (c'.assembly.liveBallots = [] ∧ ∀ a, c'.funds.frozenOf a = 0) ∧
      ((∀ b ∈ c.assembly.liveBallots, Value.isWritable b.proposal = true) →
        List.Forall₂ c.assembly.Answered c.assembly.recovery (c.results c.assembly.recovery)) := by
  intro c c'
  have hstart : Regular _ := .empty limits clock symbol opening
  have hregular : c.Regular := ledgerRun_regular hstart steps
  have heven : ∀ a, c.slack a = 0 := fun a =>
    (slack_ledgerRun hstart hd a).trans (slack_empty limits clock symbol opening a)
  have hsigned : c.assembly.Signed :=
    (Later.ledgerRun _ steps).signed hstart.orderly fun _ _ _ hb => nomatch hb
  have hanchored := (hf.anchored hstart (.empty limits clock)).1
  obtain ⟨hadvance, hok⟩ := recovering_advance hregular heven hsigned hanchored
  obtain ⟨hdone, hanswers⟩ := hadvance.releaseAll
  refine ⟨hdone.nothing_locked, fun hp => .cons hok (hanswers c.assembly fun b hb => ⟨?_, hp b hb⟩)⟩
  exact hadvance.live hb

/-- Two live ballots, one of them of an account that is not registered any more. -/
theorem ledgerRun_recoverable_unregistered :
    let steps : List LedgerStep := [
      .step (.call (.registerVoter .root Round.ann)),
      .step (.call (.registerVoter .root Round.bob)),
      .step (.call (.createProposal ⟨Round.ann, false⟩
        ⟨.bytes [], .kind .publicVote, .none, 1, 101⟩)),
      .step (.advance 1),
      .step (.call (.vote ⟨Round.ann, false⟩ 0 (.bool true) (.int 3))),
      .step (.call (.vote ⟨Round.bob, false⟩ 0 (.bool false) (.int 4))),
      .step (.call (.unregisterVoter .root Round.bob))]
    let c := Round.start.ledgerRun steps
    (∀ s ∈ steps, s.isLock = false ∧ s.isUnlock = false) ∧ Round.start.Forward steps ∧
      c.assembly.liveBallots = [⟨0, Round.ann, true, 3⟩, ⟨0, Round.bob, false, 4⟩] ∧
      (c.run c.assembly.recovery).assembly.liveBallots = [] ∧
      List.Forall₂ c.assembly.Answered c.assembly.recovery (c.results c.assembly.recovery) := by
  intro steps c
  have hd : ∀ s ∈ steps, s.isLock = false ∧ s.isUnlock = false := by decide
  have hf : Round.start.Forward steps := by decide
  have hlive : c.assembly.liveBallots = [⟨0, Round.ann, true, 3⟩, ⟨0, Round.bob, false, 4⟩] := by
    decide
  have h := ledgerRun_recoverable .standard .zero Round.symbol Round.opening steps hd hf
  have hp : ∀ b ∈ c.assembly.liveBallots, Value.isWritable b.proposal = true := by
    rw [hlive]
    decide
  exact ⟨hd, hf, hlive, h.1.1, h.2 hp⟩

end Chamber

end QuadraticVoting
