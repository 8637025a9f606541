import QuadraticVoting.Assembly.Call

/-!
# What passes the checks

For each check of a call, exactly when it passes and with which value. `Assembly.Planned` collects
what holds of a vote that has passed all of its checks.
-/

namespace QuadraticVoting

theorem bind_eq_ok_iff {ε α β : Type} {x : Except ε α} {f : α → Except ε β} {b : β} :
    x >>= f = .ok b ↔ ∃ a, x = .ok a ∧ f a = .ok b := by
  cases x with
  | error e => exact ⟨nofun, fun ⟨a, h, _⟩ => nomatch h⟩
  | ok a => exact ⟨fun h => ⟨a, rfl, h⟩, fun ⟨_, h, h'⟩ => by cases h; exact h'⟩

theorem pure_eq_ok_iff {ε α : Type} {a b : α} : (pure a : Except ε α) = .ok b ↔ a = b :=
  ⟨fun h => Except.ok.inj h, congrArg _⟩

theorem guard_eq_ok_iff {ε α β : Type} {c : Bool} {e : ε} {k : α → Except ε β}
    {y : Except ε β} {b : β} :
    (if c = true then (throw e : Except ε α) >>= k else y) = .ok b ↔ c = false ∧ y = .ok b := by
  cases c
  · simp
  · exact ⟨nofun, fun h => nomatch h.1⟩

theorem cost_eq_ok_iff {w n : Int} : cost w = .ok n ↔ w ≤ maxWeight ∧ n = w * w := by
  unfold cost
  split
  · simp only [reduceCtorEq, false_iff]; omega
  · simp only [Except.ok.injEq]
    exact ⟨fun h => ⟨by omega, h.symm⟩, fun h => h.2.symm⟩

theorem Origin.requireFor_eq_ok_iff {o : Origin} {who : Account} :
    o.requireFor who = .ok () ↔ o.isRoot = true ∨ o.account = who := by
  unfold requireFor
  split
  · next h => simpa using h
  · next h => simpa using h

theorem KindArg.require_eq_ok_iff {k : KindArg} {kind : Kind} :
    k.require = .ok kind ↔ k.kind? = some kind := by
  unfold require
  split
  · next h => simp [h]
  · next h => simp [h]

namespace Tally

/-- The tally without the ballot that a new one replaces. -/
def withdraw (t : Tally) : Option Ballot → Except Fault Tally
  | none => .ok t
  | some b => t.remove b.aye b.locked

theorem remove_eq_ok_iff {t t' : Tally} {aye : Bool} {power : Int} :
    t.remove aye power = .ok t' ↔ power ≤ t.total ∧ (aye = true → power ≤ t.aye) ∧
      t' = ⟨if aye then t.aye - power else t.aye, t.total - power⟩ := by
  unfold remove
  split
  · next h =>
    simp only [Bool.or_eq_true, decide_eq_true_eq, Bool.and_eq_true] at h
    simp only [reduceCtorEq, false_iff, not_and]
    intro h1 h2
    rcases h with h | ⟨ha, hb⟩
    · omega
    · have := h2 ha
      omega
  · next h =>
    simp only [Bool.or_eq_true, decide_eq_true_eq, Bool.and_eq_true, not_or, not_and] at h
    simp only [Except.ok.injEq]
    exact ⟨fun e => ⟨by omega, fun ha => by have := h.2 ha; omega, e.symm⟩, fun e => e.2.2.symm⟩

end Tally

namespace Assembly

variable {s : Assembly} {p now : Int} {x : Proposal}

theorem draftProposal_eq_ok_iff {creator : Account} {d : Draft} :
    s.draftProposal creator d now = .ok x ↔ creator ∈ s.registry.voters ∧
      ∃ data accounts kind, d.payload.bounded s.limits.payload = .ok data ∧
        AccountList.bounded s.limits.accounts d.accounts = .ok accounts ∧
        d.kind.require = .ok kind ∧ checkWindow s.limits d.start d.stop now = .ok () ∧
      x = { id := s.nextId, creator, data, kind, accounts, start := d.start, stop := d.stop } := by
  unfold draftProposal
  simp only [bind_eq_ok_iff, pure_eq_ok_iff, ← Registry.require_eq_ok_iff]
  constructor
  · rintro ⟨_, hr, data, hd, accounts, ha, kind, hk, _, hw, rfl⟩
    exact ⟨hr, data, accounts, kind, hd, ha, hk, hw, rfl⟩
  · rintro ⟨hr, data, accounts, kind, hd, ha, hk, hw, rfl⟩
    exact ⟨_, hr, data, hd, accounts, ha, kind, hk, _, hw, rfl⟩

theorem checkCancel_eq_ok_iff {caller : Origin} : s.checkCancel caller p now = .ok x ↔
    s.proposal? p = some x ∧ mayManage caller x = true ∧ x.isPendingAt now = true := by
  unfold checkCancel
  simp only [bind_eq_ok_iff, guard_eq_ok_iff, pure_eq_ok_iff, requireProposal_eq_ok_iff,
    Bool.not_eq_false']
  constructor
  · rintro ⟨_, hp, hm, hn, rfl⟩
    exact ⟨hp, hm, hn⟩
  · rintro ⟨hp, hm, hn⟩
    exact ⟨_, hp, hm, hn, rfl⟩

theorem checkAccountList_eq_ok_iff {accounts : ListArg} {l : AccountList} :
    s.checkAccountList x accounts now = .ok l ↔
      x.isPendingAt now = true ∧ AccountList.bounded s.limits.accounts accounts = .ok l := by
  unfold checkAccountList
  split
  · next h => simp [h]
  · next h => simp [h]

theorem checkClose_eq_ok_iff {caller : Origin} : s.checkClose caller p now = .ok x ↔
    s.proposal? p = some x ∧ mayManage caller x = true ∧
      (x.stageAt now = .ended ∨ x.isClosed = true) := by
  rw [← @Proposal.stageAt_eq_closed_iff x now]
  unfold checkClose
  simp only [bind_eq_ok_iff, guard_eq_ok_iff, requireProposal_eq_ok_iff, Bool.not_eq_false']
  constructor
  · rintro ⟨y, hp, hm, h⟩
    cases hs : y.stageAt now <;> rw [hs] at h <;> cases h
    · exact ⟨hp, hm, .inl hs⟩
    · exact ⟨hp, hm, .inr hs⟩
  · rintro ⟨hp, hm, hs | hs⟩
    · exact ⟨x, hp, hm, by rw [hs]; rfl⟩
    · exact ⟨x, hp, hm, by rw [hs]; rfl⟩

theorem swapTally_eq_ok_iff {t t' : Tally} {prior : Option Ballot} {b : Ballot} {n : Int} :
    swapTally t prior b n = .ok t' ↔
      ∃ t₀, t.withdraw prior = .ok t₀ ∧ t' = if b.weight > 0 then t₀.add b.aye n else t₀ := by
  unfold swapTally
  cases prior with
  | none =>
    constructor
    · intro h
      exact ⟨t, rfl, (pure_eq_ok_iff.1 h).symm⟩
    · rintro ⟨_, h, rfl⟩
      cases h
      rfl
  | some old =>
    dsimp only
    rw [bind_eq_ok_iff]
    constructor
    · rintro ⟨t₀, h, e⟩
      exact ⟨t₀, h, (pure_eq_ok_iff.1 e).symm⟩
    · rintro ⟨t₀, h, rfl⟩
      exact ⟨t₀, h, rfl⟩

theorem requireChange_eq_ok_iff {prior : Option Ballot} {b : Ballot} :
    requireChange prior b = .ok () ↔
      (prior = none → b.weight ≠ 0) ∧
        ∀ old, prior = some old → ¬ (old.aye = b.aye ∧ old.weight = b.weight) := by
  cases prior with
  | none => simp [requireChange]
  | some old => simp [requireChange]

/-- What holds of a vote that has passed every check. -/
structure Planned (s : Assembly) (spendable : Account → Int) (p : Int) (voter : Account)
    (aye : Bool) (weight : Value) (now : Int) (plan : VotePlan) : Prop where
  weight_eq : weight = .int plan.ballot.weight
  weight_nonneg : 0 ≤ plan.ballot.weight
  weight_le : plan.ballot.weight ≤ maxWeight
  ballot_eq : plan.ballot = ⟨p, voter, aye, plan.ballot.weight⟩
  registered : voter ∈ s.registry.voters
  proposal_eq : s.proposal? p = some plan.proposal
  is_open : plan.proposal.isClosed = false
  started : plan.proposal.start ≤ now
  not_ended : now ≤ plan.proposal.stop
  permitted : plan.proposal.permits voter = true
  prior_eq : plan.prior = s.ballot? p voter
  changes : requireChange plan.prior plan.ballot = .ok ()
  delta_eq : plan.delta = plan.ballot.locked - priorCost plan.prior
  affordable : 0 < plan.delta → plan.delta ≤ spendable voter
  tally_eq : swapTally plan.proposal.tally plan.prior plan.ballot plan.ballot.locked =
    .ok plan.tally

theorem planVote_eq_ok_iff {spendable : Account → Int} {voter : Account} {aye : Bool}
    {weight : Value} {plan : VotePlan} :
    s.planVote spendable p voter aye weight now = .ok plan ↔
      Planned s spendable p voter aye weight now plan := by
  unfold planVote
  simp only [bind_eq_ok_iff, guard_eq_ok_iff, pure_eq_ok_iff, weightOf_eq_ok_iff, cost_eq_ok_iff,
    requireActive_eq_ok_iff, Bool.not_eq_false', Bool.and_eq_false_iff, decide_eq_false_iff_not]
  constructor
  · rintro ⟨w, ⟨hw, h0⟩, _, hr, x, ⟨hp, hc, hs, he⟩, hperm, _, hch, n, ⟨hle, rfl⟩, haff, t, ht, rfl⟩
    exact {
      weight_eq := hw, weight_nonneg := h0, weight_le := hle, ballot_eq := rfl
      registered := Registry.require_eq_ok_iff.1 hr, proposal_eq := hp, is_open := hc
      started := hs, not_ended := he, permitted := hperm, prior_eq := rfl, changes := hch
      delta_eq := rfl, tally_eq := ht
      affordable := fun h => by
        dsimp only at h ⊢
        omega }
  · intro h
    obtain ⟨x, b, prior, delta, t⟩ := plan
    obtain ⟨hw, h0, hle, hb, hr, hp, hc, hs, he, hperm, hprior, hch, hd, haff, ht⟩ := h
    dsimp only at *
    obtain rfl := hprior
    rw [hb] at ht hch
    refine ⟨b.weight, ⟨hw, h0⟩, (), Registry.require_eq_ok_iff.2 hr, x, ⟨hp, hc, hs, he⟩, hperm,
      (), hch, b.locked, ⟨hle, rfl⟩, ?_, t, ht, ?_⟩
    · omega
    · rw [← hb, hd]

end Assembly

namespace Chamber

variable {s : Assembly} {p : Int} {x : Proposal}

theorem checkEditor_eq_ok_iff {origin : Origin} : checkEditor s origin p = .ok x ↔
    s.proposal? p = some x ∧ Assembly.mayManage origin x = true := by
  unfold checkEditor
  simp only [bind_eq_ok_iff, guard_eq_ok_iff, pure_eq_ok_iff, Assembly.requireProposal_eq_ok_iff,
    Bool.not_eq_false']
  constructor
  · rintro ⟨_, hp, hm, rfl⟩
    exact ⟨hp, hm⟩
  · rintro ⟨hp, hm⟩
    exact ⟨_, hp, hm, rfl⟩

theorem checkClaim_eq_ok_iff {voter : Account} {b : Ballot} : checkClaim s voter p = .ok b ↔
    voter ∈ s.registry.voters ∧ (∃ x, s.proposal? p = some x ∧ x.isClosed = true) ∧
      s.ballot? p voter = some b := by
  unfold checkClaim
  simp only [bind_eq_ok_iff, guard_eq_ok_iff, Assembly.requireProposal_eq_ok_iff,
    Bool.not_eq_false']
  constructor
  · rintro ⟨_, hr, x, hp, hc, h⟩
    refine ⟨Registry.require_eq_ok_iff.1 hr, ⟨x, hp, hc⟩, ?_⟩
    cases hb : s.ballot? p voter with
    | none => rw [hb] at h; cases h
    | some b' => rw [hb] at h; cases h; rfl
  · rintro ⟨hr, ⟨x, hp, hc⟩, hb⟩
    exact ⟨(), Registry.require_eq_ok_iff.2 hr, x, hp, hc, by rw [hb]; rfl⟩

end Chamber

end QuadraticVoting
