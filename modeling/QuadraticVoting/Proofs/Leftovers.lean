import QuadraticVoting.Proofs.Polls

/-!
# What a failed call at a desk leaves

A call at a desk is several in a row: an account is registered and then paid, or registered and then
given a poll; a clock is moved and then a poll is closed. Each of them is all or nothing, as far as
it can be told (`Chamber.perform_restores_iff`), but what the first one did is not taken back when
the second one fails. `Desk.run_restores_iff` says for each call exactly when a failure leaves
everything as it was.
-/

namespace QuadraticVoting

/-- Where a reply is a failure, it comes with the state from before. -/
def Reply.Restores {S α : Type} (r : Reply S α) (s : S) : Prop :=
  ∀ f, r.result = .error f → r.state = s

namespace Reply

variable {S α β : Type} {r : Reply S α} {s : S}

theorem restores_of_ok {a : α} (h : r.result = .ok a) : r.Restores s :=
  fun _ hf => nomatch h.symm.trans hf

theorem restores_of_state (h : r.state = s) : r.Restores s := fun _ _ => h

theorem restores_iff_of_error {f : Fault} (h : r.result = .error f) :
    r.Restores s ↔ r.state = s :=
  ⟨fun hr => hr f h, restores_of_state⟩

theorem restores_map_iff {g : α → β} : (r.map g).Restores s ↔ r.Restores s := by
  refine forall_congr' fun f => imp_congr ?_ Iff.rfl
  rw [result_map]
  cases r.result <;> simp [Except.map]

end Reply

theorem Chamber.registered_eq_iff {σ : Type} {c : Chamber σ} {who : Account} :
    c.registered who = c ↔ who ∈ c.assembly.registry.voters :=
  ⟨fun h => h ▸ c.mem_registered who, registered_of_mem⟩

namespace Desk

variable {d e : Desk} {creator : Account} {limits : Limits} {clock : Clock} {p : Int} {x : Proposal}

theorem withChamber_eq_iff {c : Chamber Ledger} : d.withChamber c = d ↔ c = d.chamber :=
  ⟨congrArg Desk.chamber, fun h => h ▸ rfl⟩

theorem via_restores_iff {α : Type} {r : Reply (Chamber Ledger) α} :
    (d.via r).Restores d ↔ r.Restores d.chamber :=
  forall_congr' fun _ => imp_congr Iff.rfl withChamber_eq_iff

section AnyHost

variable [Host]

theorem run_regular (h : d.chamber.Regular) (steps : List DeskStep) :
    (d.run steps).chamber.Regular :=
  run_keeps (P := fun d => d.chamber.Regular) (fun _ s h => Chamber.ledgerStep_regular h s) h steps

/-! ### Voters -/

theorem addVoter_eq (d : Desk) {who : Account} (hg : who.isGiven = true) (n : Int) :
    let r := d.chamber.funds.mint who n
    (d.addVoter who n).result = r.result.map (fun _ => ()) ∧
      (d.addVoter who n).state =
        d.withChamber ((d.chamber.registered who).withFunds r.state) := by
  intro r
  obtain ⟨new, hnew, hstate⟩ := d.chamber.registerVoter_root hg
  have hvia : (d.via (d.chamber.registerVoter .root who)).state =
      d.withChamber (d.chamber.registered who) := congrArg d.withChamber hstate
  unfold addVoter
  rw [Reply.andThen_of_ok (r := d.via _) hnew, hvia]
  exact ⟨rfl, rfl⟩

/-- A new voter who cannot be paid is registered all the same. -/
theorem addVoter_restores_iff (h : d.chamber.Regular) (who : Account) (n : Int) :
    (d.addVoter who n).Restores d ↔
      (who.isGiven = true → who ∉ d.chamber.assembly.registry.voters →
        0 ≤ n ∧ d.chamber.funds.issuance + n ≤ maxBalance) := by
  by_cases hg : who.isGiven = true
  · have hmint := h.sound.result_mint_iff (a := who) (n := n)
    have hfunds := Ledger.state_mint d.chamber.funds who n
    obtain ⟨hr, hs⟩ := d.addVoter_eq hg n
    simp only [hg, true_and, forall_const] at hmint hfunds ⊢
    cases hm : (d.chamber.funds.mint who n).result with
    | ok event =>
      rw [hm] at hmint hr
      exact iff_of_true (Reply.restores_of_ok hr) fun _ => hmint.1 rfl
    | error f =>
      rw [hm] at hmint hr
      have hn : ¬ (0 ≤ n ∧ d.chamber.funds.issuance + n ≤ maxBalance) := fun hc =>
        nomatch hmint.2 hc
      rw [if_neg hn] at hfunds
      have hsame : (d.chamber.registered who).withFunds d.chamber.funds =
          d.chamber.registered who := rfl
      rw [Reply.restores_iff_of_error hr, hs, hfunds, withChamber_eq_iff, hsame,
        Chamber.registered_eq_iff]
      exact ⟨fun hm hn => absurd hm hn, fun hv => Decidable.of_not_not fun hm => hn (hv hm)⟩
  · refine iff_of_true (Reply.restores_of_state ?_) fun hg' => absurd hg' hg
    have hfail := d.chamber.registerVoter_root_of_not_given (Bool.not_eq_true _ ▸ hg)
    unfold addVoter
    rw [hfail]
    rfl

/-! ### Polls -/

/-- A creator is registered even if the poll is refused, and a poll that cannot be told of is
stored. -/
theorem createProposal_restores_iff (h : d.chamber.assembly.Orderly) (data : Payload) :
    let s := d.chamber.assembly
    let told := Value.isWritable s.nextId && Value.isWritable (s.now + s.limits.maximum)
    (d.createProposal data).Restores d ↔ (d.creator.isGiven = true →
      (firstFault (data.conditions s.limits.payload) = none → told = true) ∧
        (firstFault (data.conditions s.limits.payload) ≠ none →
          d.creator ∈ s.registry.voters)) := by
  intro s told
  cases hg : d.creator.isGiven with
  | false =>
    refine iff_of_true (Reply.restores_of_state ?_) nofun
    unfold createProposal
    rw [d.chamber.registerVoter_root_of_not_given hg]
    rfl
  | true =>
    let c := d.chamber.registered d.creator
    let draft := Draft.poll s.limits s.now data
    obtain ⟨hr, hs⟩ := d.createProposal_eq hg data
    obtain ⟨hstops, hmakes⟩ :=
      c.perform_create ⟨h.proposals, h.ballots⟩ ⟨d.creator, false⟩ draft
    have hpoll : firstFault (c.assembly.createConditions ⟨d.creator, false⟩ draft) =
        firstFault (data.conditions s.limits.payload) :=
      Assembly.firstFault_poll (s := c.assembly) hg (d.chamber.mem_registered d.creator) data
    have htold : c.tellsCreation draft = told := c.tellsCreation_poll data
    have hanswer : ∀ x, (c.perform (.createProposal ⟨d.creator, false⟩ draft)).result =
        Except.map .id x → (d.createProposal data).result = x := fun x hx =>
      hr.trans (Reply.result_of_map (fun _ _ => Answer.id.inj) hx)
    rw [hpoll] at hstops hmakes
    cases hf : firstFault (data.conditions s.limits.payload) with
    | some f =>
      obtain ⟨hfail, hstate⟩ := hstops f hf
      rw [Reply.restores_iff_of_error (hanswer (.error f.told) hfail), hs, withChamber_eq_iff,
        show (c.createProposal _ draft).state = c from hstate, Chamber.registered_eq_iff]
      simp [s]
    | none =>
      obtain ⟨l, kind, -, -, hresult, hstate⟩ := hmakes hf
      rw [htold] at hresult
      simp only [forall_const, ne_eq, not_true_eq_false, IsEmpty.forall_iff, and_true]
      cases ht : told with
      | true =>
        rw [ht, if_pos rfl] at hresult
        exact iff_of_true (Reply.restores_of_ok (hanswer (.ok _) hresult)) rfl
      | false =>
        rw [ht, if_neg Bool.false_ne_true] at hresult
        rw [Reply.restores_iff_of_error (hanswer (.error _) hresult), hs, withChamber_eq_iff]
        refine iff_of_false (fun he => ?_) Bool.false_ne_true
        have hnext : s.nextId + 1 = s.nextId :=
          congrArg (fun c : Chamber Ledger => c.assembly.nextId) (hstate.symm.trans he)
        omega

theorem vote_restores_iff (h : d.chamber.Regular) (p : Int) (voter : Account) (aye weight : Value) :
    (d.vote p voter aye weight).Restores d ↔
      d.chamber.Tellable (.vote ⟨voter, false⟩ p aye weight) := by
  have hiff := Chamber.perform_restores_iff h (.vote ⟨voter, false⟩ p aye weight)
  unfold vote
  cases hg : voter.isGiven with
  | false =>
    have hsigned : Origin.signed voter = .error .signerRequired := if_neg (by simp [hg])
    rw [hsigned]
    refine iff_of_true (Reply.restores_of_state rfl) fun c' events notices a hc _ => ?_
    cases hc with
    | voted ho =>
      obtain ⟨-, rfl, hg'⟩ := Origin.signer_eq_ok_iff.1 ho
      cases hg.symm.trans hg'
  | true =>
    have hsigned : Origin.signed voter = .ok ⟨voter, false⟩ := if_pos hg
    rw [hsigned, Reply.check_ok, Reply.restores_map_iff, via_restores_iff,
      ← Reply.restores_map_iff (g := Answer.outcome)]
    exact hiff

/-- The clock stays where it was moved to, and a proposal that cannot be told of stays closed. -/
theorem closeVote_restores_iff (h : d.chamber.Regular)
    (hw : ∀ x, d.chamber.assembly.proposal? p = some x → x.start ≤ x.stop) :
    (d.closeVote p).Restores d ↔ ∀ x, d.chamber.assembly.proposal? p = some x →
      x.isClosed = false → d.reachesEnd x = true ∧ Value.isWritable p = true := by
  cases hx : d.chamber.assembly.proposal? p with
  | none =>
    refine iff_of_true (Reply.restores_of_state ?_) nofun
    unfold closeVote Assembly.requireProposal
    rw [hx]
    rfl
  | some x =>
    simp only [Option.some.injEq, forall_eq']
    cases hc : x.isClosed with
    | true =>
      refine iff_of_true ?_ nofun
      -- A closed proposal does not wait for its end, and closing it again changes nothing.
      have hstays : x.waitsAt d.chamber.assembly.now = false :=
        Proposal.waitsAt_eq_false_iff.2 (.inr hc)
      have hdirect : d.closeVote p = d.via (d.chamber.closeProposal .root p) := by
        rw [closeVote_eq hx, toEnd, hstays, if_neg Bool.false_ne_true]
        rfl
      rw [hdirect, via_restores_iff, ← Reply.restores_map_iff (g := Answer.flag)]
      refine (Chamber.perform_restores_iff h (.closeProposal .root p)).2 fun _ _ _ _ hch _ => ?_
      cases hch with
      | closed hx' hc' =>
        cases hx.symm.trans (Assembly.checkClose_eq_ok_iff.1 hx').1
        cases hc.symm.trans hc'
    | false =>
      obtain ⟨hresult, hresolved, hnow⟩ := closeVote_exact h.orderly (hw x hx) hx
      simp only [forall_const]
      rw [← Bool.and_eq_true_iff]
      cases hm : d.reachesEnd x && Value.isWritable p with
      | true =>
        rw [hm, if_pos rfl] at hresult
        exact iff_of_true (Reply.restores_of_ok hresult) rfl
      | false =>
        rw [hm, if_neg Bool.false_ne_true] at hresult
        rw [Reply.restores_iff_of_error hresult]
        refine iff_of_false (fun hs => ?_) Bool.false_ne_true
        rw [hs] at hresolved hnow
        cases hend : d.reachesEnd x with
        | true =>
          have hclosed := (hresolved.proposal_eq p).trans (if_pos ⟨rfl, hend⟩)
          have hsame : x = { x with status := .closed } :=
            Option.some.inj (hx.symm.trans hclosed)
          exact Bool.false_ne_true (hc.symm.trans (congrArg Proposal.isClosed hsame))
        | false =>
          have hwaits : x.waitsAt d.chamber.assembly.now = true := by
            rw [reachesEnd, Bool.or_eq_false_iff, Bool.not_eq_false'] at hend
            exact hend.1
          rw [hwaits, if_pos rfl] at hnow
          have hle := ((Proposal.waitsAt_iff (hw x hx)).1 hwaits).2
          omega

/-! ### Any number of steps -/

/-- A desk with any limits and any creator, after anything that can be done at it or behind it. A
failed call leaves everything as it was, with these exceptions and no others: a new account is
registered, and then the amount that comes with it is negative or too much, or the poll that it
wants to open is refused; a poll is stored whose id or last block cannot be written; a vote that
cannot be told of is counted; a proposal that is not closed is found, and the clock is moved to its
end or it is closed, but the block or the id cannot be written. -/
theorem run_restores_iff (limits : Limits) (clock : Clock) (symbol : Text)
    (opening : List (Account × Int)) (creator : Account) (steps : List DeskStep) :
    let d := (opened limits clock symbol opening creator).run steps
    let s := d.chamber.assembly
    (∀ who n, (∀ f, (d.addVoter who n).result = .error f → (d.addVoter who n).state = d) ↔
      (who.isGiven = true → who ∉ s.registry.voters →
        0 ≤ n ∧ d.chamber.funds.issuance + n ≤ maxBalance)) ∧
    (∀ data,
      (∀ f, (d.createProposal data).result = .error f → (d.createProposal data).state = d) ↔
      (creator.isGiven = true →
        ((∃ l, data.toBytes = .ok l ∧ l.length ≤ limits.payload) →
          Value.isWritable s.nextId = true ∧ Value.isWritable (s.now + limits.maximum) = true) ∧
        ((¬ ∃ l, data.toBytes = .ok l ∧ l.length ≤ limits.payload) →
          creator ∈ s.registry.voters))) ∧
    (∀ p voter aye weight, (∀ f, (d.vote p voter aye weight).result = .error f →
        (d.vote p voter aye weight).state = d) ↔
      d.chamber.Tellable (.vote ⟨voter, false⟩ p aye weight)) ∧
    ∀ p, (∀ f, (d.closeVote p).result = .error f → (d.closeVote p).state = d) ↔
      ∀ x, s.proposal? p = some x → x.isClosed = false →
        (x.waitsAt s.now = true → Value.isWritable (x.stop + 1) = true) ∧
          Value.isWritable p = true := by
  intro d s
  have hreach : d.Reachable creator limits clock :=
    run_reachable (d := opened limits clock symbol opening creator) ⟨rfl, .start _⟩ steps
  have hregular : d.chamber.Regular := run_regular (Chamber.Regular.empty ..) steps
  have hlimits : s.limits = limits := hreach.chamber.limits_eq
  have hcreator : d.creator = creator := hreach.creator_eq
  refine ⟨addVoter_restores_iff hregular, fun data => ?_, vote_restores_iff hregular, fun p => ?_⟩
  · have hfits : firstFault (data.conditions limits.payload) = none ↔
        ∃ l, data.toBytes = .ok l ∧ l.length ≤ limits.payload := by
      simp only [Payload.firstFault_conditions_iff, Int.ofNat_le]
    refine (createProposal_restores_iff hregular.orderly data).trans ?_
    rw [show d.chamber.assembly.limits = limits from hlimits, hcreator, Bool.and_eq_true_iff]
    simp only [ne_eq, hfits]
    rfl
  · refine (closeVote_restores_iff hregular fun x hx =>
      Int.le_of_lt (hreach.chamber.within hx).start_lt_stop).trans ?_
    simp [reachesEnd, imp_iff_not_or, s]

end AnyHost

/-- A voter who is new is paid a negative amount: it is told that it cannot be paid, and has been
registered all the same. -/
theorem addVoter_registers_and_fails :
    let d := opened .standard .zero Chamber.Round.symbol [] Chamber.Round.ann
    let r := d.addVoter Chamber.Round.bob (-1)
    r.result = .error .negativeMint ∧ d.chamber.assembly.registry.voters = [] ∧
      r.state.chamber.assembly.registry.voters = [Chamber.Round.bob] ∧
      d.chamber.assembly.journal = [] ∧
      r.state.chamber.assembly.journal = [.voterRegistered Chamber.Round.bob] := by
  decide +kernel

end Desk

end QuadraticVoting
