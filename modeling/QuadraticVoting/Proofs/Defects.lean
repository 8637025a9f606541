import QuadraticVoting.Proofs.Tallies

/-!
# Defects are out of reach

Two faults are of kind `defect`: taking more out of a tally than is in it, and unlocking more than
is frozen. In a run without unlocks on the ledger itself neither comes up, since every tally counts
the live ballots (`Assembly.Counted`) and all that they lock is frozen (`Chamber.Backed`). For the
same reason no tally stops at `maxBalance`, and the ledger locks whatever a vote has found to be
spendable.
-/

namespace QuadraticVoting

/-- A check that never fails with a defect. -/
structure NoDefect {α : Type} (x : Except Fault α) : Prop where
  kind_ne : ∀ {f : Fault}, x = .error f → f.kind ≠ .defect

namespace NoDefect

variable {α β : Type}

theorem ok (a : α) : NoDefect (.ok a) := ⟨nofun⟩

theorem error {f : Fault} (h : f.kind ≠ .defect) : NoDefect (.error f : Except Fault α) where
  kind_ne hf := by
    cases hf
    exact h

theorem bind {x : Except Fault α} {k : α → Except Fault β} (hx : NoDefect x)
    (hk : ∀ a, x = .ok a → NoDefect (k a)) : NoDefect (x >>= k) := by
  cases x with
  | error f => exact error (hx.kind_ne rfl)
  | ok a => exact hk a rfl

theorem discard {x : Except Fault α} (hx : NoDefect x) : NoDefect (discard x) := by
  cases x with
  | error f => exact error (hx.kind_ne rfl)
  | ok a => exact ok ()

theorem guard {c : Bool} {f : Fault} {k : α → Except Fault β} {y : Except Fault β}
    (hf : f.kind ≠ .defect) (hy : NoDefect y) :
    NoDefect (if c = true then (throw f : Except Fault α) >>= k else y) := by
  cases c with
  | false => exact hy
  | true => exact error hf

end NoDefect

/-- Being told of another fault in its place does not make a defect of it. -/
theorem Fault.kind_told_ne [Host] {f : Fault} (h : f.kind ≠ .defect) : f.told.kind ≠ .defect := by
  unfold told
  split
  · exact h
  · next what _ => cases what <;> nofun

/-! ### The checks -/

theorem Origin.noDefect_requireFor (o : Origin) (who : Account) : NoDefect (o.requireFor who) := by
  unfold requireFor
  split
  · exact .ok ()
  · exact .error nofun

theorem Origin.noDefect_signer (o : Origin) : NoDefect o.signer := by
  unfold signer
  split
  · exact .error nofun
  · exact .ok _

theorem Registry.noDefect_require (r : Registry) (who : Account) : NoDefect (r.require who) := by
  unfold require
  split
  · exact .ok ()
  · exact .error nofun

theorem Payload.noDefect_bounded (d : Payload) (limit : Int) : NoDefect (d.bounded limit) := by
  have hbytes : NoDefect d.toBytes := by
    unfold toBytes
    split
    · split
      · exact .ok _
      · exact .error nofun
    · exact .ok _
  unfold bounded
  split
  · next f h => exact .error (hbytes.kind_ne h)
  · split
    · exact .error nofun
    · exact .ok _

theorem AccountList.noDefect_bounded (limit : Int) (arg : ListArg) :
    NoDefect (AccountList.bounded limit arg) := by
  have hcheck : ∀ l, NoDefect (AccountList.bounded.check limit l) := by
    intro l
    unfold AccountList.bounded.check
    split
    · exact .error nofun
    · exact .ok l
  cases arg with
  | none => exact hcheck _
  | text t => exact .error nofun
  | accounts l => exact hcheck _

theorem KindArg.noDefect_require (k : KindArg) : NoDefect k.require := by
  unfold require
  split
  · exact .ok _
  · exact .error nofun

theorem noDefect_weightOf (v : Value) : NoDefect (weightOf v) := by
  unfold weightOf
  split
  · split
    · exact .error nofun
    · exact .ok _
  · exact .error nofun

theorem noDefect_cost (w : Int) : NoDefect (cost w) := by
  unfold cost
  split
  · exact .error nofun
  · exact .ok _

namespace Assembly

variable (s : Assembly) (p now : Int)

theorem noDefect_requireProposal : NoDefect (s.requireProposal p) := by
  unfold requireProposal
  split
  · exact .ok _
  · exact .error nofun

theorem noDefect_checkWindow (limits : Limits) (start stop : Int) :
    NoDefect (checkWindow limits start stop now) := by
  unfold checkWindow
  repeat' split
  all_goals first
    | exact .ok ()
    | exact .error nofun

theorem noDefect_draftProposal (creator : Account) (d : Draft) :
    NoDefect (s.draftProposal creator d now) := by
  unfold draftProposal
  refine .bind (Registry.noDefect_require ..) fun _ _ => ?_
  refine .bind (Payload.noDefect_bounded ..) fun _ _ => ?_
  refine .bind (AccountList.noDefect_bounded ..) fun _ _ => ?_
  refine .bind (KindArg.noDefect_require ..) fun _ _ => ?_
  exact .bind (noDefect_checkWindow ..) fun _ _ => .ok _

theorem noDefect_checkCancel (o : Origin) : NoDefect (s.checkCancel o p now) := by
  unfold checkCancel
  refine .bind (noDefect_requireProposal ..) fun x _ => ?_
  exact .guard nofun (.guard nofun (.ok x))

theorem noDefect_checkAccountList (x : Proposal) (arg : ListArg) :
    NoDefect (s.checkAccountList x arg now) := by
  unfold checkAccountList
  split
  · exact AccountList.noDefect_bounded ..
  · exact .error nofun

theorem noDefect_checkClose (o : Origin) : NoDefect (s.checkClose o p now) := by
  unfold checkClose
  refine .bind (noDefect_requireProposal ..) fun x _ => .guard nofun ?_
  cases x.stageAt now with
  | pending | active => exact .error nofun
  | ended | closed => exact .ok x

theorem noDefect_requireActive : NoDefect (s.requireActive p now) := by
  unfold requireActive
  refine .bind (noDefect_requireProposal ..) fun x _ => ?_
  cases x.stageAt now with
  | active => exact .ok x
  | pending | ended | closed => exact .error nofun

theorem noDefect_requireChange (prior : Option Ballot) (b : Ballot) :
    NoDefect (requireChange prior b) := by
  unfold requireChange
  split
  · split
    · exact .error nofun
    · exact .ok ()
  · split
    · exact .error nofun
    · exact .ok ()

theorem noDefect_planVote (spendable : Account → Int) (voter : Account) (aye : Bool)
    (weight : Value)
    (ht : ∀ x, s.proposal? p = some x → x.isClosed = false →
      ∃ t, x.tally.withdraw (s.ballot? p voter) = .ok t) :
    NoDefect (s.planVote spendable p voter aye weight now) := by
  unfold planVote
  refine .bind (noDefect_weightOf ..) fun w _ => ?_
  refine .bind (Registry.noDefect_require ..) fun _ _ => ?_
  refine .bind (noDefect_requireActive ..) fun x hx => .guard nofun ?_
  refine .bind (noDefect_requireChange ..) fun _ _ => ?_
  refine .bind (noDefect_cost ..) fun n _ => .guard nofun ?_
  refine .bind ?_ fun _ _ => .ok _
  obtain ⟨hstored, hopen, -, -⟩ := requireActive_eq_ok_iff.1 hx
  obtain ⟨t, h⟩ := ht x hstored hopen
  rw [swapTally_eq_ok_iff.2 ⟨t, h, rfl⟩]
  exact .ok _

end Assembly

/-- A tally that counts the live ballots can give up any of them. -/
theorem Assembly.Counted.remove_ok {s : Assembly} {issuance : Int} {gone : List Ballot}
    (h : s.Counted issuance gone) {p : Int} {x : Proposal} {v : Account} {b : Ballot}
    (hx : s.proposal? p = some x) (hb : s.ballot? p v = some b) :
    ∃ t, x.tally.remove b.aye b.locked = .ok t := by
  have ht := h.tally_eq hx
  rw [tallyOf_append, tallyOf_ballotsOn] at ht
  have htotal : b.locked ≤ x.tally.total := by
    have hlive := le_sumOn Ballot.locked_nonneg hb
    have hgone := power_nonneg (gone.filter (·.proposal = p))
    rw [ht]
    exact Int.le_trans hlive (Int.le_add_of_nonneg_right hgone)
  have haye : b.aye = true → b.locked ≤ x.tally.aye := by
    intro ha
    have hlive := le_sumOn Ballot.ayePower_nonneg hb
    have hpower : b.ayePower = b.locked := if_pos ha
    have hgone := power_nonneg ((gone.filter (·.proposal = p)).filter (·.aye))
    rw [ht, ← hpower]
    exact Int.le_trans hlive (Int.le_add_of_nonneg_right hgone)
  exact ⟨_, Tally.remove_eq_ok_iff.2 ⟨htotal, haye, rfl⟩⟩

namespace Chamber

theorem noDefect_checkClaim (s : Assembly) (voter : Account) (p : Int) :
    NoDefect (checkClaim s voter p) := by
  unfold checkClaim
  refine .bind (Registry.noDefect_require ..) fun _ _ => ?_
  refine .bind (Assembly.noDefect_requireProposal ..) fun x _ => .guard nofun ?_
  cases s.ballot? p voter with
  | none => exact .error nofun
  | some b => exact .ok b

theorem noDefect_checkEditor (s : Assembly) (o : Origin) (p : Int) :
    NoDefect (checkEditor s o p) := by
  unfold checkEditor
  refine .bind (Assembly.noDefect_requireProposal ..) fun x _ => ?_
  exact .guard nofun (.ok x)

/-! ### Calls and runs -/

variable {c : Chamber Ledger} {gone : List Ballot}

theorem noDefect_checks [Host] (h : c.assembly.Counted c.funds.issuance gone) (call : Call) :
    NoDefect (c.checks call) := by
  cases call with
  | registerVoter o who =>
    refine .bind (Origin.noDefect_requireFor ..) fun _ _ => ?_
    split
    · exact .error nofun
    · exact .ok ()
  | unregisterVoter o who =>
    exact .bind (Origin.noDefect_requireFor ..) fun _ _ => Registry.noDefect_require ..
  | createProposal o d =>
    exact .bind (Origin.noDefect_signer ..) fun _ _ => .discard (Assembly.noDefect_draftProposal ..)
  | cancelProposal o p => exact .discard (Assembly.noDefect_checkCancel ..)
  | setAccountList o p arg =>
    exact .bind (noDefect_checkEditor ..) fun _ _ =>
      .discard (Assembly.noDefect_checkAccountList ..)
  | vote o p aye weight =>
    refine .bind (Origin.noDefect_signer ..) fun voter _ => .discard ?_
    refine Assembly.noDefect_planVote _ _ _ _ _ _ _ fun x hx _ => ?_
    cases hb : c.assembly.ballot? p voter with
    | none => exact ⟨_, rfl⟩
    | some b => exact h.remove_ok hx hb
  | closeProposal o p => exact .discard (Assembly.noDefect_checkClose ..)
  | claim o p =>
    exact .bind (Origin.noDefect_signer ..) fun _ _ => .discard (noDefect_checkClaim ..)

theorem perform_kind_ne [Host] (hb : c.Backed) (h : c.assembly.Counted c.funds.issuance gone)
    {call : Call} {f : Fault} (hf : (c.perform call).result = .error f) : f.kind ≠ .defect := by
  cases c.perform_course call with
  | refused hx hr hs =>
    rw [hr] at hf
    cases hf
    exact Fault.kind_told_ne ((noDefect_checks h call).kind_ne hx)
  | quiet hq hr hs | done hc hn hr hs =>
    rw [hr] at hf
    cases hf
  | muted hq hr hs | untold hc hn hr hs | halfway hh hr hs =>
    rw [hr] at hf
    cases hf
    nofun
  | unfunded hu hr hs =>
    -- The ledger has what it is asked for.
    cases hu with
    | vote ho hp he => cases he.symm.trans (hb.adjust_ok (Assembly.planVote_eq_ok_iff.1 hp))
    | claim ho hc he => cases he.symm.trans (hb.unlock_ok (checkClaim_eq_ok_iff.1 hc).2.2)

/-- In a run with any calls, mints and locks, but without unlocks on the ledger itself, no call
fails with a defect: every live ballot can be taken out of its tally and be unlocked. A vote that
has passed its checks finds room in the tally for both powers, and the ledger moves its delta. -/
theorem ledgerRun_no_defect [Host] (limits : Limits) (clock : Clock) (symbol : Text)
    (opening : List (Account × Int)) (steps : List LedgerStep)
    (hu : ∀ s ∈ steps, s.isUnlock = false) :
    let c := (Chamber.empty limits clock (Ledger.create symbol opening).state).ledgerRun steps
    (∀ call f, (c.perform call).result = .error f → f.kind ≠ .defect) ∧
      (∀ p x v b, c.assembly.proposal? p = some x → c.assembly.ballot? p v = some b →
        ∃ t, x.tally.remove b.aye b.locked = .ok t) ∧
      (∀ p v b, c.assembly.ballot? p v = some b → (c.funds.unlock v b.locked).result = .ok ()) ∧
      ∀ p voter aye weight now plan,
        c.assembly.planVote (FundLock.spendable c.funds) p voter aye weight now = .ok plan →
          (∀ t, plan.proposal.tally.withdraw plan.prior = .ok t →
            t.total + plan.ballot.locked ≤ maxBalance ∧
              t.aye + plan.ballot.locked ≤ maxBalance) ∧
          (FundLock.adjust c.funds voter plan.delta).result = .ok () := by
  intro c
  have hstart := Backed.empty limits clock symbol opening
  have hb : c.Backed := ledgerRun_backed hstart hu
  have h := ledgerRun_counted hstart (.empty limits clock _) hu
  refine ⟨fun call f hf => perform_kind_ne hb h hf, fun p x v b hx hv => h.remove_ok hx hv,
    fun p v b hv => hb.unlock_ok hv, fun p voter aye weight now plan hplan => ?_⟩
  have hp := Assembly.planVote_eq_ok_iff.1 hplan
  have hx := h.tally_of_open hp.proposal_eq hp.is_open
  have hsum := Int.le_trans (hb.sumOn_write_le hp) hb.regular.sound.capped
  exact ⟨fun t ht => hp.unsaturated hx hsum ht, hb.adjust_ok hp⟩

theorem ledgerRun_no_defect_round :
    (∀ s ∈ Round.steps ++ [.lock Round.ann 3], s.isUnlock = false) ∧
      ((Round.start.ledgerRun (Round.steps ++ [.lock Round.ann 3])).funds.unlock Round.ann
        4).result = .ok () := by
  have hu : ∀ s ∈ Round.steps ++ [.lock Round.ann 3], s.isUnlock = false := by decide
  have h := ledgerRun_no_defect .standard .zero Round.symbol Round.opening _ hu
  have hb : (Round.start.ledgerRun (Round.steps ++ [.lock Round.ann 3])).assembly.ballot? 0
      Round.ann = some ⟨0, Round.ann, true, 2⟩ := by decide
  exact ⟨hu, h.2.2.1 0 Round.ann ⟨0, Round.ann, true, 2⟩ hb⟩

end Chamber

end QuadraticVoting
