import QuadraticVoting.Proofs.Backing
import QuadraticVoting.Proofs.Lineage

/-!
# Isolation of accounts

What a call can reach, by where it comes from. An account that signs a call reaches its own
registration, its own ballots, what is frozen of its own funds, the proposals that it has created,
and the tally and status of the proposal that it votes on. Root reaches registrations and proposals,
and neither ballots nor tallies nor funds. An origin that is neither root nor an account reaches
nothing: no registered voter and no creator is the absent account or the empty one
(`Assembly.Given`), so none of the checks takes it for one of them.
-/

namespace QuadraticVoting

namespace Ledger

variable [Host] (l : Ledger) {a b : Account}

theorem frozenOf_lock_of_ne (n : Int) (h : b ≠ a) :
    (l.lock a n).state.frozenOf b = l.frozenOf b := by
  rw [state_lock]
  split
  · rw [frozenOf_freeze, if_neg h, Int.add_zero]
  · rfl

theorem frozenOf_unlock_of_ne (n : Int) (h : b ≠ a) :
    (l.unlock a n).state.frozenOf b = l.frozenOf b := by
  rw [state_unlock]
  split
  · rw [frozenOf_thaw, if_neg h, Int.sub_zero]
  · rfl

theorem frozenOf_adjust_of_ne (d : Int) (h : b ≠ a) :
    (FundLock.adjust l a d).state.frozenOf b = l.frozenOf b := by
  unfold FundLock.adjust
  split
  · exact l.frozenOf_lock_of_ne d h
  · split
    · exact l.frozenOf_unlock_of_ne (-d) h
    · rfl

end Ledger

theorem Assembly.mayManage_eq_true_iff {o : Origin} {x : Proposal} :
    mayManage o x = true ↔ o.isRoot = true ∨ x.creator = o.account := by
  simp [mayManage]

/-- The registered voters and the creators are accounts. -/
structure Assembly.Given (s : Assembly) : Prop where
  voters : ∀ v ∈ s.registry.voters, v.isGiven = true
  creators : ∀ {p : Int} {x : Proposal}, s.proposal? p = some x → x.creator.isGiven = true

theorem Assembly.Given.empty (limits : Limits) (clock : Clock) :
    (Assembly.empty limits clock).Given where
  voters _ h := by cases h
  creators h := by cases h

namespace Chamber

section Call

variable {σ : Type} [FundLock σ] {c c' : Chamber σ} {call : Call} {events : List Event}
  {notices : List Log.Notice} {a : Answer} {p : Int} {v : Account} {x y : Proposal}

/-! ### What an account reaches -/

/-- Only root and the account itself change whether an account is registered. -/
theorem Change.registered_iff (hc : c.Change call c' events notices a)
    (ho : call.origin.isRoot = false) (hv : v ≠ call.origin.account) :
    v ∈ c'.assembly.registry.voters ↔ v ∈ c.assembly.registry.voters := by
  cases hc with
  | @registered o who hfor _ _ =>
    have hself : o.account = who := (Origin.requireFor_eq_ok_iff.1 hfor).resolve_left
      fun hroot => by cases ho.symm.trans hroot
    rw [← hself]
    exact Registry.mem_add.trans (or_iff_left hv)
  | @unregistered o who hfor _ =>
    have hself : o.account = who := (Origin.requireFor_eq_ok_iff.1 hfor).resolve_left
      fun hroot => by cases ho.symm.trans hroot
    rw [← hself]
    exact Registry.mem_remove.trans (and_iff_left hv)
  | created | cancelled | listed | closed => exact Iff.rfl
  | voted => rw [Assembly.carry_eq]
  | claimed => rw [Assembly.dropBallot_eq]

theorem Change.ballot?_eq (hc : c.Change call c' events notices a)
    (hv : call.origin.signer ≠ .ok v) (p : Int) :
    c'.assembly.ballot? p v = c.assembly.ballot? p v := by
  cases hc with
  | registered | unregistered | created | cancelled | listed | closed => rfl
  | voted ho hp hf =>
    have hvoter := (Assembly.planVote_eq_ok_iff.1 hp).ballot_voter
    rw [Assembly.ballot?_carry, Assembly.ballot?_write, if_neg]
    rintro ⟨-, rfl⟩
    exact hv (ho.trans (congrArg Except.ok hvoter.symm))
  | claimed ho hb hf =>
    rw [Assembly.ballot?_dropBallot, if_neg]
    rintro ⟨-, rfl⟩
    exact hv ho

theorem Halfway.ballot?_eq (hh : c.Halfway call c') (hv : call.origin.signer ≠ .ok v) (p : Int) :
    c'.assembly.ballot? p v = c.assembly.ballot? p v := by
  cases hh with
  | vote ho hp hf hn hcl =>
    have hvoter := (Assembly.planVote_eq_ok_iff.1 hp).ballot_voter
    rw [Assembly.ballot?_write, if_neg]
    rintro ⟨-, rfl⟩
    exact hv (ho.trans (congrArg Except.ok hvoter.symm))

theorem perform_registered_iff [Host] (ho : call.origin.isRoot = false)
    (hv : v ≠ call.origin.account) :
    v ∈ (c.perform call).state.assembly.registry.voters ↔ v ∈ c.assembly.registry.voters := by
  refine perform_assembly (P := fun s => v ∈ s.registry.voters ↔ v ∈ c.assembly.registry.voters)
    call Iff.rfl ?_ ?_ ?_
  · exact fun hc => hc.registered_iff ho hv
  · exact fun hc _ => hc.registered_iff ho hv
  · intro _ hh
    cases hh with
    | vote => rw [Assembly.write_eq]

theorem perform_ballot?_eq [Host] (hv : call.origin.signer ≠ .ok v) (p : Int) :
    (c.perform call).state.assembly.ballot? p v = c.assembly.ballot? p v := by
  refine perform_assembly (P := fun s => s.ballot? p v = c.assembly.ballot? p v) call rfl ?_ ?_ ?_
  · exact fun hc => hc.ballot?_eq hv p
  · exact fun hc _ => hc.ballot?_eq hv p
  · exact fun hh => hh.ballot?_eq hv p

/-- Of a proposal that it may not manage, a caller changes no more than the tally and the status,
by voting on it. -/
theorem Edit.recounted {after : Option Proposal} (he : c.Edit p after call)
    (h : c.assembly.Orderly) (hx : c.assembly.proposal? p = some x)
    (hm : Assembly.mayManage call.origin x = false) :
    ∃ y, after = some y ∧ y = { x with status := y.status, tally := y.tally } ∧
      (y = x ∨ ∃ o aye weight, call = .vote o p aye weight) := by
  have hmanaged : ∀ {z : Proposal}, c.assembly.proposal? p = some z →
      ¬ Assembly.mayManage call.origin z = true := by
    intro z hz hmanage
    cases hx.symm.trans hz
    cases hm.symm.trans hmanage
  cases he with
  | kept hsame => exact ⟨x, hsame.trans hx, rfl, .inl rfl⟩
  | created hp =>
    have := (h.proposals hx).issued
    omega
  | cancelled hy =>
    obtain ⟨hy, hmanage, -⟩ := Assembly.checkCancel_eq_ok_iff.1 hy
    exact absurd hmanage (hmanaged hy)
  | listed hy =>
    obtain ⟨hy, hmanage⟩ := checkEditor_eq_ok_iff.1 hy
    exact absurd hmanage (hmanaged hy)
  | closed hy =>
    obtain ⟨hy, hmanage, -⟩ := Assembly.checkClose_eq_ok_iff.1 hy
    exact absurd hmanage (hmanaged hy)
  | counted _ hv _ hput =>
    cases hx.symm.trans hv.proposal_eq
    exact ⟨_, hput, rfl, .inr ⟨_, _, _, rfl⟩⟩
  | decided _ hv _ hput =>
    cases hx.symm.trans hv.proposal_eq
    exact ⟨_, hput, rfl, .inr ⟨_, _, _, rfl⟩⟩

/-! ### What root reaches -/

theorem signer_ne_of_isRoot {o : Origin} (ho : o.isRoot = true) (v : Account) :
    o.signer ≠ .ok v := by
  intro hs
  cases ho.symm.trans (Origin.signer_eq_ok_iff.1 hs).1

/-- Root creates nothing and touches no tally. -/
theorem Edit.tally_eq {after : Option Proposal} (he : c.Edit p after call)
    (ho : call.origin.isRoot = true) (hy : after = some y) :
    ∃ x, c.assembly.proposal? p = some x ∧ y.tally = x.tally := by
  cases he with
  | kept hsame => exact ⟨y, hsame.symm.trans hy, rfl⟩
  | created _ hsign | counted hsign | decided hsign => exact absurd hsign (signer_ne_of_isRoot ho _)
  | cancelled _ hgone => cases hgone.symm.trans hy
  | listed hx _ hput =>
    cases hput.symm.trans hy
    exact ⟨_, (checkEditor_eq_ok_iff.1 hx).1, rfl⟩
  | closed hx _ hput =>
    cases hput.symm.trans hy
    exact ⟨_, (Assembly.checkClose_eq_ok_iff.1 hx).1, rfl⟩

theorem Edit.eq_cancel {after : Option Proposal} (he : c.Edit p after call)
    (hx : c.assembly.proposal? p = some x) (hn : after = none) :
    ∃ o, call = .cancelProposal o p := by
  cases he with
  | kept hsame => cases hx.symm.trans (hsame.symm.trans hn)
  | cancelled => exact ⟨_, rfl⟩
  | created _ _ _ hput | listed _ _ hput | closed _ _ hput | counted _ _ _ hput
  | decided _ _ _ hput => cases hput.symm.trans hn

/-! ### What reaches nothing -/

theorem Change.given (hc : c.Change call c' events notices a)
    (h : ∀ v ∈ c.assembly.registry.voters, v.isGiven = true) :
    ∀ v ∈ c'.assembly.registry.voters, v.isGiven = true := by
  intro v hv
  cases hc with
  | registered ho hg hn =>
    rcases Registry.mem_add.1 hv with hv | rfl
    · exact h v hv
    · exact hg
  | unregistered => exact h v (Registry.mem_remove.1 hv).1
  | created | cancelled | listed | closed => exact h v hv
  | voted =>
    rw [Assembly.carry_eq] at hv
    exact h v hv
  | claimed =>
    rw [Assembly.dropBallot_eq] at hv
    exact h v hv

theorem perform_given [Host] (h : c.assembly.Orderly) (hg : c.assembly.Given) (call : Call) :
    (c.perform call).state.assembly.Given := by
  refine ⟨?_, fun {p y} hy => ?_⟩
  · refine perform_assembly (P := fun s => ∀ v ∈ s.registry.voters, v.isGiven = true) call
      hg.voters ?_ ?_ ?_
    · exact fun hc => hc.given hg.voters
    · exact fun hc _ => hc.given hg.voters
    · intro _ hh
      cases hh with
      | vote =>
        rw [Assembly.write_eq]
        exact hg.voters
  · rcases (perform_edit h call p).lineage hy with ⟨x, hx, hxy⟩ | ⟨-, o, d, creator, -, ho, hd⟩
    · exact hxy.creator_eq ▸ hg.creators hx
    · obtain ⟨-, data, accounts, kind, -, -, -, -, rfl⟩ := Assembly.draftProposal_eq_ok_iff.1 hd
      exact (Origin.signer_eq_ok_iff.1 ho).2.2

theorem Later.given [Host] (h : c.Later c') (ho : c.assembly.Orderly) (hg : c.assembly.Given) :
    c'.assembly.Given :=
  h.keeps ho (fun _ hd hg call => perform_given hd hg call)
    (fun _ _ hg => ⟨hg.voters, hg.creators⟩) hg

theorem Reachable.given [Host] {limits : Limits} {clock : Clock} (h : Reachable limits clock c) :
    c.assembly.Given := by
  obtain ⟨funds, hl⟩ := h.later
  exact hl.given (.empty limits clock) (.empty limits clock)

omit [FundLock σ] in
theorem exists_of_discard {α : Type} {x : Except Fault α} (h : discard x = .ok ()) :
    ∃ a, x = .ok a := by
  cases x with
  | error f => cases h
  | ok a => exact ⟨a, rfl⟩

theorem checks_ne_ok (hg : c.assembly.Given) (hr : call.origin.isRoot = false)
    (ha : call.origin.account.isGiven = false) : c.checks call ≠ .ok () := by
  have hfor : ∀ {o : Origin} {who : Account}, call.origin = o → o.requireFor who = .ok () →
      who.isGiven = false := by
    intro o who he ho
    subst he
    have hself := (Origin.requireFor_eq_ok_iff.1 ho).resolve_left fun h => by cases hr.symm.trans h
    exact hself ▸ ha
  have hsign : ∀ {o : Origin} {who : Account}, call.origin = o → o.signer ≠ .ok who := by
    intro o who he ho
    subst he
    obtain ⟨-, hself, hgiven⟩ := Origin.signer_eq_ok_iff.1 ho
    cases (hself ▸ ha).symm.trans hgiven
  have hmanage : ∀ {o : Origin} {p : Int} {x : Proposal}, call.origin = o →
      c.assembly.proposal? p = some x → ¬ Assembly.mayManage o x = true := by
    intro o p x he hx hm
    subst he
    have hself := (Assembly.mayManage_eq_true_iff.1 hm).resolve_left
      fun h => by cases hr.symm.trans h
    cases (hself ▸ ha).symm.trans (hg.creators hx)
  intro hok
  cases call with
  | registerVoter o who =>
    obtain ⟨_, ho, hthrow⟩ := bind_eq_ok_iff.1 hok
    rw [hfor rfl ho] at hthrow
    cases hthrow
  | unregisterVoter o who =>
    obtain ⟨_, ho, hrequire⟩ := bind_eq_ok_iff.1 hok
    have hmem := hg.voters who (Registry.require_eq_ok_iff.1 hrequire)
    cases (hfor rfl ho).symm.trans hmem
  | createProposal o d =>
    obtain ⟨creator, ho, -⟩ := bind_eq_ok_iff.1 hok
    exact hsign rfl ho
  | cancelProposal o p =>
    obtain ⟨x, hx⟩ := exists_of_discard hok
    obtain ⟨hx, hm, -⟩ := Assembly.checkCancel_eq_ok_iff.1 hx
    exact hmanage rfl hx hm
  | setAccountList o p arg =>
    obtain ⟨x, hx, -⟩ := bind_eq_ok_iff.1 hok
    obtain ⟨hx, hm⟩ := checkEditor_eq_ok_iff.1 hx
    exact hmanage rfl hx hm
  | vote o p aye weight =>
    obtain ⟨voter, ho, -⟩ := bind_eq_ok_iff.1 hok
    exact hsign rfl ho
  | closeProposal o p =>
    obtain ⟨x, hx⟩ := exists_of_discard hok
    obtain ⟨hx, hm, -⟩ := Assembly.checkClose_eq_ok_iff.1 hx
    exact hmanage rfl hx hm
  | claim o p =>
    obtain ⟨voter, ho, -⟩ := bind_eq_ok_iff.1 hok
    exact hsign rfl ho

end Call

/-! ### Chambers with a ledger -/

variable {c : Chamber Ledger}

theorem frozenOf_perform [Host] {call : Call} {v : Account} (hv : call.origin.signer ≠ .ok v) :
    (c.perform call).state.funds.frozenOf v = c.funds.frozenOf v := by
  have hne : ∀ {a : Account}, call.origin.signer = .ok a → v ≠ a := by
    rintro a ha rfl
    exact hv ha
  refine perform_signer_funds (P := fun l : Ledger => l.frozenOf v = c.funds.frozenOf v) rfl ?_ ?_
  · exact fun a d ha => c.funds.frozenOf_adjust_of_ne d (hne ha)
  · exact fun a n ha => c.funds.frozenOf_unlock_of_ne n (hne ha)

theorem balanceOf_perform [Host] (c : Chamber Ledger) (call : Call) (v : Account) :
    (c.perform call).state.funds.balanceOf v = c.funds.balanceOf v :=
  congrArg (fun m : OrdMap Account Int => (m.get? v).getD 0) (c.perform_minted call).1

/-- In every chamber with a ledger that a host can come to, for every call, whether it goes well or
not: one that an account signs leaves every other account's registration, ballots, balance and
frozen funds as they were, its own balance, and every proposal of another creator but for the tally
and the status of the one that it votes on. One from root, also from one that carries an account,
leaves all ballots, tallies and funds as they were, creates nothing and takes nothing away but the
proposal that it cancels. One from neither changes nothing at all. -/
theorem reachable_isolated [Host] (limits : Limits) (clock : Clock) (h : c.Reachable limits clock)
    (call : Call) :
    let c' := (c.perform call).state
    let who := call.origin.account
    (call.origin.isRoot = false →
      (∀ v, v ≠ who → (v ∈ c'.assembly.registry.voters ↔ v ∈ c.assembly.registry.voters) ∧
        (∀ p, c'.assembly.ballot? p v = c.assembly.ballot? p v) ∧
        c'.funds.balanceOf v = c.funds.balanceOf v ∧ c'.funds.frozenOf v = c.funds.frozenOf v) ∧
      c'.funds.balanceOf who = c.funds.balanceOf who ∧
      ∀ p x, c.assembly.proposal? p = some x → x.creator ≠ who →
        ∃ y, c'.assembly.proposal? p = some y ∧
          y = { x with status := y.status, tally := y.tally } ∧
          (y = x ∨ ∃ o aye weight, call = .vote o p aye weight)) ∧
      (call.origin.isRoot = true →
        (∀ p v, c'.assembly.ballot? p v = c.assembly.ballot? p v) ∧ c'.funds = c.funds ∧
        ∀ p, (∀ y, c'.assembly.proposal? p = some y →
          ∃ x, c.assembly.proposal? p = some x ∧ y.tally = x.tally) ∧
          ∀ x, c.assembly.proposal? p = some x → c'.assembly.proposal? p = none →
            ∃ o, call = .cancelProposal o p) ∧
      (call.origin.isRoot = false → who.isGiven = false → c' = c) := by
  intro c' who
  refine ⟨fun hr => ⟨fun v hv => ?_, balanceOf_perform c call who, fun p x hx hcreator => ?_⟩,
    fun hr => ⟨fun p v => perform_ballot?_eq (signer_ne_of_isRoot hr v) p, ?_, fun p => ?_⟩,
    fun hr ha => ?_⟩
  · have hsigner : call.origin.signer ≠ .ok v := fun hs =>
      hv (Origin.signer_eq_ok_iff.1 hs).2.1.symm
    exact ⟨perform_registered_iff hr hv, perform_ballot?_eq hsigner, balanceOf_perform c call v,
      frozenOf_perform hsigner⟩
  · refine (perform_edit h.orderly call p).recounted h.orderly hx ?_
    by_contra hm
    rcases Assembly.mayManage_eq_true_iff.1 (eq_true_of_ne_false hm) with hroot | hself
    · cases hr.symm.trans hroot
    · exact hcreator hself
  · refine perform_signer_funds (P := (· = c.funds)) rfl ?_ ?_
    · exact fun a _ ha => absurd ha (signer_ne_of_isRoot hr a)
    · exact fun a _ ha => absurd ha (signer_ne_of_isRoot hr a)
  · have hedit := perform_edit h.orderly call p
    exact ⟨fun y hy => hedit.tally_eq hr hy, fun x hx hn => hedit.eq_cancel hx hn⟩
  · cases hx : c.checks call with
    | error f => exact (perform_of_checks_error hx).2
    | ok u => exact absurd hx (checks_ne_ok h.given hr ha)

/-- While ann votes on a proposal of bob's, bob's vote on it stays as it is. -/
theorem reachable_isolated_vote :
    let c := (Chamber.empty .standard .zero (Ledger.create Round.symbol Round.opening).state).run [
      .call (.registerVoter .root Round.ann),
      .call (.registerVoter .root Round.bob),
      .call (.createProposal ⟨Round.bob, false⟩ ⟨.bytes [], .kind .publicVote, .none, 1, 101⟩),
      .advance 1,
      .call (.vote ⟨Round.bob, false⟩ 0 (.bool true) (.int 3))]
    let c' := (c.perform (.vote ⟨Round.ann, false⟩ 0 (.bool false) (.int 2))).state
    c.Reachable .standard .zero ∧ c'.assembly ≠ c.assembly ∧
      c'.assembly.ballot? 0 Round.bob = some ⟨0, Round.bob, true, 3⟩ ∧
      c'.funds.frozenOf Round.bob = 9 := by
  intro c c'
  have hreach : c.Reachable .standard .zero := (Reachable.start _).run _
  have h := reachable_isolated .standard .zero hreach
    (.vote ⟨Round.ann, false⟩ 0 (.bool false) (.int 2))
  obtain ⟨-, hballot, -, hfrozen⟩ := (h.1 rfl).1 Round.bob (by decide)
  exact ⟨hreach, by decide, (hballot 0).trans (by decide), hfrozen.trans (by decide)⟩

end Chamber

end QuadraticVoting
