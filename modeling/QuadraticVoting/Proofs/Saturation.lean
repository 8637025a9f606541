import QuadraticVoting.Proofs.Later
import QuadraticVoting.Proofs.Tallies

/-!
# Tallies that stop short

An addition to a tally stops at the largest balance, separately for either power, and taking out
takes out all that is asked for. So what an addition has stopped short by is missing for ever: the
gap between what should be in a tally and what is never closes (`Tally.gap_le_of_performAll`). As
long as all that is in a tally fits, it is the exact sum of it (`Tally.performAll_of_fits`). Once it
has not fitted, the tally can no longer give back all of it (`Tally.survives_iff_fits`).

Votes do nothing else to a tally than adding shares and taking them back, whatever the fund lock
does (`Chamber.Reachable.booked`). With a balance ledger all shares fit, since what they lock is
frozen; another fund lock may let voters lock more than there is room for.
-/

namespace QuadraticVoting

/-- A power on one side of a tally. -/
structure Share where
  aye : Bool
  power : Int
deriving DecidableEq

namespace Share

def ayePower (s : Share) : Int := if s.aye then s.power else 0

/-- A power that a tally can be given. -/
def InRange (s : Share) : Prop := 0 ≤ s.power ∧ s.power ≤ maxBalance

instance (s : Share) : Decidable s.InRange := inferInstanceAs (Decidable (_ ∧ _))

theorem InRange.ayePower_nonneg {s : Share} (h : s.InRange) : 0 ≤ s.ayePower := by
  unfold ayePower
  split
  · exact h.1
  · exact Int.le_refl 0

theorem InRange.ayePower_le {s : Share} (h : s.InRange) : s.ayePower ≤ s.power := by
  unfold ayePower
  split
  · exact Int.le_refl _
  · exact h.1

end Share

inductive TallyCall
  | add (s : Share)
  | remove (s : Share)
deriving DecidableEq

/-- What is left of some shares after some calls. -/
def outstanding (shares : List Share) : List TallyCall → List Share
  | [] => shares
  | .add s :: rest => outstanding (s :: shares) rest
  | .remove s :: rest => outstanding (shares.erase s) rest

/-- Each call adds a share in range, or takes back one that has been added before and not been taken
back since. -/
def Paired (shares : List Share) : List TallyCall → Prop
  | [] => True
  | .add s :: rest => s.InRange ∧ Paired (s :: shares) rest
  | .remove s :: rest => s ∈ shares ∧ Paired (shares.erase s) rest

instance decidablePaired : (shares : List Share) → (calls : List TallyCall) →
    Decidable (Paired shares calls)
  | _, [] => .isTrue trivial
  | shares, .add s :: rest => @instDecidableAnd _ _ _ (decidablePaired (s :: shares) rest)
  | shares, .remove s :: rest => @instDecidableAnd _ _ _ (decidablePaired (shares.erase s) rest)

namespace Tally

/-- The exact sums of some shares. -/
def exact (shares : List Share) : Tally where
  aye := (shares.map Share.ayePower).sum
  total := (shares.map Share.power).sum

def perform (t : Tally) : TallyCall → Except Fault Tally
  | .add s => .ok (t.add s.aye s.power)
  | .remove s => t.remove s.aye s.power

def performAll (t : Tally) : List TallyCall → Except Fault Tally
  | [] => .ok t
  | call :: rest => t.perform call >>= fun t => t.performAll rest

/-- What a tally should be at all times. -/
structure Sound (t : Tally) : Prop where
  aye_nonneg : 0 ≤ t.aye
  aye_le : t.aye ≤ t.total
  total_le : t.total ≤ maxBalance

end Tally

/-! ### Calls in pairs -/

section Calls

variable {shares : List Share} {s : Share} {calls calls' : List TallyCall} {t t' : Tally}

theorem outstanding_append (shares : List Share) (calls calls' : List TallyCall) :
    outstanding shares (calls ++ calls') = outstanding (outstanding shares calls) calls' := by
  induction calls generalizing shares with
  | nil => rfl
  | cons call rest ih => cases call <;> exact ih _

theorem paired_append : Paired shares (calls ++ calls') ↔
    Paired shares calls ∧ Paired (outstanding shares calls) calls' := by
  induction calls generalizing shares with
  | nil => exact ⟨fun h => ⟨trivial, h⟩, fun h => h.2⟩
  | cons call rest ih =>
    cases call <;> exact (and_congr_right fun _ => ih).trans and_assoc.symm

theorem Paired.inRange (h : Paired shares calls) (hs : ∀ s ∈ shares, s.InRange) :
    ∀ s ∈ outstanding shares calls, s.InRange := by
  induction calls generalizing shares with
  | nil => exact hs
  | cons call rest ih =>
    cases call with
    | add s => exact ih h.2 (List.forall_mem_cons.2 ⟨h.1, hs⟩)
    | remove s => exact ih h.2 fun s' hs' => hs s' (List.mem_of_mem_erase hs')

theorem removes_of_perm {taken : List Share} (h : taken.Perm shares) :
    Paired shares (taken.map .remove) ∧ outstanding shares (taken.map .remove) = [] := by
  induction taken generalizing shares with
  | nil =>
    obtain rfl := h.nil_eq
    exact ⟨trivial, rfl⟩
  | cons s rest ih =>
    obtain ⟨hmem, hrest⟩ := List.cons_perm_iff_perm_erase.1 h
    exact ⟨⟨hmem, (ih hrest).1⟩, (ih hrest).2⟩

theorem sum_erase (h : s ∈ shares) (f : Share → Int) :
    ((shares.erase s).map f).sum = (shares.map f).sum - f s := by
  have hperm := ((List.perm_cons_erase h).map f).sum_eq
  rw [List.map_cons, List.sum_cons] at hperm
  omega

namespace Tally

theorem performAll_append (t : Tally) (calls calls' : List TallyCall) :
    t.performAll (calls ++ calls') = t.performAll calls >>= fun t => t.performAll calls' := by
  induction calls generalizing t with
  | nil => rfl
  | cons call rest ih =>
    show (t.perform call >>= fun t => t.performAll (rest ++ calls')) = _
    rw [funext ih, ← bind_assoc]
    rfl

/-! ### Exact sums -/

theorem exact_erase (h : s ∈ shares) : exact (shares.erase s) =
    ⟨(exact shares).aye - s.ayePower, (exact shares).total - s.power⟩ := by
  unfold exact
  rw [sum_erase h, sum_erase h]

theorem exact_nonneg (hs : ∀ s ∈ shares, s.InRange) :
    0 ≤ (exact shares).aye ∧ (exact shares).aye ≤ (exact shares).total := by
  induction shares with
  | nil => exact ⟨Int.le_refl 0, Int.le_refl 0⟩
  | cons s rest ih =>
    obtain ⟨hs, hrest⟩ := List.forall_mem_cons.1 hs
    have ih := ih hrest
    have hnonneg := hs.ayePower_nonneg
    have hle := hs.ayePower_le
    simp only [exact, List.map_cons, List.sum_cons] at ih ⊢
    omega

theorem performAll_cons_eq_ok_iff {call : TallyCall} : t.performAll (call :: calls) = .ok t' ↔
    ∃ u, t.perform call = .ok u ∧ u.performAll calls = .ok t' := bind_eq_ok_iff

theorem kind_of_performAll {f : Fault} (h : t.performAll calls = .error f) : f.kind = .defect := by
  induction calls generalizing t with
  | nil => cases h
  | cons call rest ih =>
    cases hc : t.perform call with
    | ok u =>
      rw [performAll, hc] at h
      exact ih h
    | error g =>
      rw [performAll, hc] at h
      cases h
      cases call with
      | add s => cases hc
      | remove s =>
        change t.remove s.aye s.power = _ at hc
        unfold remove at hc
        split at hc
        · cases hc
          rfl
        · cases hc

/-! ### What an addition stops short by -/

/-- The total stays in range, and what is missing in it can only become more. -/
theorem gap_le_of_performAll (h : t.performAll calls = .ok t') (hp : Paired shares calls)
    (hs : ∀ s ∈ shares, s.InRange) (h0 : 0 ≤ t.total) (hmax : t.total ≤ maxBalance) :
    0 ≤ t'.total ∧ t'.total ≤ maxBalance ∧
      (exact shares).total - t.total ≤ (exact (outstanding shares calls)).total - t'.total := by
  induction calls generalizing t shares with
  | nil =>
    cases h
    exact ⟨h0, hmax, Int.le_refl _⟩
  | cons call rest ih =>
    obtain ⟨u, hu, hrest⟩ := performAll_cons_eq_ok_iff.1 h
    cases call with
    | add s =>
      cases hu
      obtain ⟨⟨hnonneg, hle⟩, hp⟩ := hp
      have htotal : (t.add s.aye s.power).total = min (t.total + s.power) maxBalance := rfl
      have hsum : (exact (s :: shares)).total = s.power + (exact shares).total := rfl
      have hshares := List.forall_mem_cons.2 ⟨⟨hnonneg, hle⟩, hs⟩
      obtain ⟨h0, hmax, hgap⟩ := ih hrest hp hshares (by omega) (by omega)
      refine ⟨h0, hmax, Int.le_trans ?_ hgap⟩
      omega
    | remove s =>
      obtain ⟨hmem, hp⟩ := hp
      obtain ⟨hpower, -, rfl⟩ := remove_eq_ok_iff.1 hu
      have hnonneg := (hs s hmem).1
      have hsum : (exact (shares.erase s)).total = (exact shares).total - s.power := by
        rw [exact_erase hmem]
      have hshares : ∀ s' ∈ shares.erase s, s'.InRange :=
        fun s' hs' => hs s' (List.mem_of_mem_erase hs')
      obtain ⟨h0, hmax, hgap⟩ := ih hrest hp hshares (by dsimp only; omega) (by dsimp only; omega)
      refine ⟨h0, hmax, Int.le_trans ?_ hgap⟩
      dsimp only
      omega

/-- All that is in a tally fits, after each call. -/
def Fits (shares : List Share) (calls : List TallyCall) : Prop :=
  ∀ done, done <+: calls → (exact (outstanding shares done)).total ≤ maxBalance

theorem Fits.here (h : Fits shares calls) : (exact shares).total ≤ maxBalance :=
  h [] List.nil_prefix

theorem Fits.next {call : TallyCall} (h : Fits shares (call :: calls)) :
    Fits (outstanding shares [call]) calls := fun done hd => by
  rw [← outstanding_append]
  exact h (call :: done) (List.prefix_cons_inj call |>.2 hd)

/-- As long as all of it fits, a tally is the exact sum of what is in it. -/
theorem performAll_of_fits (hp : Paired shares calls) (hs : ∀ s ∈ shares, s.InRange)
    (hf : Fits shares calls) :
    (exact shares).performAll calls = .ok (exact (outstanding shares calls)) := by
  induction calls generalizing shares with
  | nil => rfl
  | cons call rest ih =>
    cases call with
    | add s =>
      have hshares := List.forall_mem_cons.2 ⟨hp.1, hs⟩
      have hfits : (exact (s :: shares)).total ≤ maxBalance := hf.next.here
      have hsum : (exact (s :: shares)).total = s.power + (exact shares).total := rfl
      have hle := (exact_nonneg hs).2
      have hadd : (exact shares).add s.aye s.power = exact (s :: shares) := by
        rw [add_eq (by omega) fun _ => by omega, Int.add_comm, Int.add_comm (exact shares).total]
        rfl
      rw [performAll, perform, hadd]
      exact ih hp.2 hshares hf.next
    | remove s =>
      obtain ⟨hmem, hp⟩ := hp
      have hshares : ∀ s' ∈ shares.erase s, s'.InRange :=
        fun s' hs' => hs s' (List.mem_of_mem_erase hs')
      have herase := exact_erase hmem
      have hleft := exact_nonneg hshares
      rw [herase] at hleft
      dsimp only at hleft
      have hremove : (exact shares).remove s.aye s.power = .ok (exact (shares.erase s)) := by
        refine remove_eq_ok_iff.2 ⟨by omega, fun ha => ?_, herase.trans ?_⟩
        · have hpower : s.ayePower = s.power := if_pos ha
          omega
        · unfold Share.ayePower
          cases s.aye
          · simp
          · rfl
      rw [performAll, perform, hremove]
      exact ih hp hshares hf.next

/-- Whether a tally is sound after each of some calls. -/
def Survives (calls : List TallyCall) : Prop :=
  ∀ done, done <+: calls → ∃ t, zero.performAll done = .ok t ∧ t.Sound

theorem fits_append (h : Fits shares calls) (h' : Fits (outstanding shares calls) calls') :
    Fits shares (calls ++ calls') := by
  rintro done ⟨rest, hd⟩
  rcases List.append_eq_append_iff.1 hd with ⟨more, hcalls, -⟩ | ⟨more, rfl, hcalls⟩
  · exact h done ⟨more, hcalls.symm⟩
  · rw [outstanding_append]
    exact h' more ⟨rest, hcalls.symm⟩

/-- Nothing that is taken back makes a tally too large. -/
theorem fits_removes {taken : List Share} (hp : Paired shares (taken.map .remove))
    (hs : ∀ s ∈ shares, s.InRange) (h : (exact shares).total ≤ maxBalance) :
    Fits shares (taken.map .remove) := by
  induction taken generalizing shares with
  | nil =>
    intro done hd
    rwa [List.prefix_nil.1 hd]
  | cons s rest ih =>
    obtain ⟨hmem, hp⟩ := hp
    have hnonneg := (hs s hmem).1
    have hsum : (exact (shares.erase s)).total = (exact shares).total - s.power := by
      rw [exact_erase hmem]
    have hrest := ih hp (fun s' hs' => hs s' (List.mem_of_mem_erase hs')) (by omega)
    intro done hd
    rcases List.prefix_cons_iff.1 hd with rfl | ⟨more, rfl, hmore⟩
    · exact h
    · exact hrest more hmore

theorem survives_of_fits (hp : Paired [] calls) (hf : Fits [] calls) : Survives calls := by
  rintro done ⟨rest, rfl⟩
  have hp := (paired_append.1 hp).1
  have hshares := hp.inRange nofun
  have hfits : Fits [] done := fun k hk => hf k (hk.trans (List.prefix_append done rest))
  have hsum := exact_nonneg hshares
  have htotal := hf done (List.prefix_append done rest)
  exact ⟨_, performAll_of_fits hp nofun hfits, hsum.1, hsum.2, htotal⟩

/-- Once something has not fitted, the tally cannot give back all of what it was given. -/
theorem performAll_removes_of_not_fits (hp : Paired [] calls) (hf : ¬ Fits [] calls)
    {taken : List Share} (ht : taken.Perm (outstanding [] calls)) :
    ∃ f, zero.performAll (calls ++ taken.map .remove) = .error f ∧ f.kind = .defect := by
  cases hrun : zero.performAll (calls ++ taken.map .remove) with
  | error f => exact ⟨f, rfl, kind_of_performAll hrun⟩
  | ok t =>
    obtain ⟨done, ⟨rest, rfl⟩, hlarge⟩ : ∃ done, done <+: calls ∧
        maxBalance < (exact (outstanding [] done)).total := by
      simpa only [Fits, not_forall, Int.not_le, exists_prop] using hf
    -- The gap is positive after `done`, and would be negative once all has been taken back.
    obtain ⟨htaken, hnil⟩ := removes_of_perm ht
    have hall : Paired [] (done ++ (rest ++ taken.map .remove)) := by
      rw [← List.append_assoc]
      exact paired_append.2 ⟨hp, htaken⟩
    have hempty : outstanding (outstanding [] done) (rest ++ taken.map .remove) = [] := by
      rw [← outstanding_append, ← List.append_assoc, outstanding_append, hnil]
    obtain ⟨hdone, hrest⟩ := paired_append.1 hall
    rw [List.append_assoc, performAll_append] at hrun
    obtain ⟨u, hu, hrun⟩ := bind_eq_ok_iff.1 hrun
    obtain ⟨h0, hmax, -⟩ := gap_le_of_performAll hu hdone nofun (Int.le_refl 0) (by decide)
    obtain ⟨h0', -, hgap⟩ := gap_le_of_performAll hrun hrest (hdone.inRange nofun) h0 hmax
    have hzero : (exact []).total = 0 := rfl
    rw [hempty] at hgap
    omega

end Tally

end Calls

/-! ### Tallies of proposals -/

namespace Ballot

/-- What a ballot counts for. -/
def share (b : Ballot) : Share := ⟨b.aye, b.locked⟩

end Ballot

/-- What a vote does to the tally of its proposal. -/
def VotePlan.tallyCalls (plan : VotePlan) : List TallyCall :=
  (plan.prior.map fun b => .remove b.share).toList ++
    (plan.current.map fun b => .add b.share).toList

namespace Assembly

/-- Every tally has come about by calls in pairs. What these leave in the tally of an open proposal
adds up like its live ballots. -/
def Booked (s : Assembly) : Prop := ∀ p x, s.proposal? p = some x →
  ∃ calls, Paired [] calls ∧ Tally.zero.performAll calls = .ok x.tally ∧
    (x.isClosed = false → ∀ f : Share → Int,
      ((outstanding [] calls).map f).sum = s.sumOn p fun b => f b.share)

section Vote

variable {s : Assembly} {spendable : Account → Int} {p : Int} {voter : Account} {aye : Bool}
  {weight : Value} {now : Int} {plan : VotePlan}

theorem Planned.performAll_tallyCalls (hp : Planned s spendable p voter aye weight now plan) :
    plan.proposal.tally.performAll plan.tallyCalls = .ok plan.tally := by
  obtain ⟨t, ht, he⟩ := hp.exists_withdraw
  have hremove : plan.proposal.tally.performAll
      (plan.prior.map fun b => .remove b.share).toList = .ok t := by
    cases hprior : plan.prior with
    | none =>
      rw [hprior] at ht
      exact ht
    | some b =>
      rw [hprior] at ht
      exact Tally.performAll_cons_eq_ok_iff.2 ⟨t, ht, rfl⟩
  rw [VotePlan.tallyCalls, Tally.performAll_append, hremove, he]
  show t.performAll _ = _
  unfold VotePlan.current
  split <;> rfl

theorem share_mem_of_sums {shares : List Share} {v : Account} {b : Ballot}
    (hb : s.ballot? p v = some b)
    (hf : ∀ f : Share → Int, (shares.map f).sum = s.sumOn p fun b => f b.share) :
    b.share ∈ shares := by
  by_contra hmem
  let f : Share → Int := fun k => if k = b.share then 1 else 0
  have hzero : (shares.map f).sum = 0 := by
    refine List.sum_eq_zero fun n hn => ?_
    obtain ⟨k, hk, rfl⟩ := List.mem_map.1 hn
    exact if_neg fun e : k = b.share => hmem (e ▸ hk)
  have hone : f b.share ≤ s.sumOn p fun b => f b.share := by
    refine le_sumOn (fun b' => ?_) hb
    show 0 ≤ if b'.share = b.share then (1 : Int) else 0
    split <;> decide
  rw [← hf, hzero] at hone
  simp [f] at hone

theorem Planned.share_inRange (hp : Planned s spendable p voter aye weight now plan) :
    plan.ballot.share.InRange := by
  have hsq : plan.ballot.weight * plan.ballot.weight ≤ maxWeight * maxWeight :=
    Int.mul_le_mul hp.weight_le hp.weight_le hp.weight_nonneg (by decide)
  exact ⟨plan.ballot.locked_nonneg, Int.le_trans hsq maxWeight_sq_le⟩

theorem Planned.paired_tallyCalls (hp : Planned s spendable p voter aye weight now plan)
    {shares : List Share}
    (hf : ∀ f : Share → Int, (shares.map f).sum = s.sumOn p fun b => f b.share) :
    Paired shares plan.tallyCalls ∧ ∀ f : Share → Int,
      ((outstanding shares plan.tallyCalls).map f).sum =
        (s.write plan).sumOn p fun b => f b.share := by
  have hremove : Paired shares (plan.prior.map fun b => .remove b.share).toList ∧
      ∀ f : Share → Int,
        ((outstanding shares (plan.prior.map fun b => .remove b.share).toList).map f).sum =
          s.sumOn p (fun b => f b.share) - (plan.prior.map fun b => f b.share).getD 0 := by
    cases hprior : plan.prior with
    | none => exact ⟨trivial, fun f => (hf f).trans (Int.sub_zero _).symm⟩
    | some b =>
      have hmem := share_mem_of_sums (hp.prior_eq.symm.trans hprior) hf
      exact ⟨⟨hmem, trivial⟩, fun f => (sum_erase hmem f).trans (congrArg (· - _) (hf f))⟩
  rw [VotePlan.tallyCalls, paired_append]
  refine ⟨⟨hremove.1, ?_⟩, fun f => ?_⟩
  · unfold VotePlan.current
    split
    · exact ⟨hp.share_inRange, trivial⟩
    · trivial
  · rw [outstanding_append, hp.sumOn_write, if_pos rfl, ← hremove.2 f]
    unfold VotePlan.current
    split
    · exact Int.add_comm _ _
    · exact (Int.add_zero _).symm

end Vote

namespace Booked

variable {s : Assembly}

theorem empty (limits : Limits) (clock : Clock) : (Assembly.empty limits clock).Booked :=
  fun _ _ hx => nomatch hx

theorem create (h : s.Booked) (ho : s.Orderly) {creator : Account} {d : Draft} {now : Int}
    {x : Proposal} (hx : s.draftProposal creator d now = .ok x) :
    Booked { s with proposals := s.proposals.insert x.id x, nextId := s.nextId + 1 } := by
  obtain ⟨-, data, accounts, kind, -, -, -, -, rfl⟩ := draftProposal_eq_ok_iff.1 hx
  intro p y hy
  rw [proposal?_insert] at hy
  split at hy
  · next e =>
    cases hy
    subst e
    have hnil : s.ballotsOn s.nextId = [] :=
      ballotsOn_eq_nil fun v => ho.ballot?_of_le (Int.le_refl _) v
    refine ⟨[], trivial, rfl, fun _ f => ?_⟩
    show (0 : Int) = ((s.ballotsOn s.nextId).map _).sum
    rw [hnil]
    rfl
  · exact h p y hy

theorem cancel (h : s.Booked) (p : Int) : Booked { s with proposals := s.proposals.erase p } := by
  intro q x hx
  rw [proposal?, OrdMap.get?_erase] at hx
  split at hx
  · cases hx
  · exact h q x hx

theorem putProposal (h : s.Booked) {p : Int} {x y : Proposal} (hx : s.proposal? p = some x)
    (ht : y.tally = x.tally) (hc : x.isClosed = true → y.isClosed = true) :
    (s.putProposal p y).Booked := by
  intro q z hz
  rw [proposal?_putProposal] at hz
  split at hz
  · next e =>
    cases hz
    subst e
    obtain ⟨calls, hp, hr, hsums⟩ := h _ x hx
    refine ⟨calls, hp, ht ▸ hr, fun ho => hsums ?_⟩
    by_contra hclosed
    cases ho.symm.trans (hc (eq_true_of_ne_false hclosed))
  · exact h q z hz

theorem dropBallot (h : s.Booked) {p : Int} {x : Proposal} (hx : s.proposal? p = some x)
    (hc : x.isClosed = true) (v : Account) : (s.dropBallot p v).Booked := by
  intro q y hy
  rw [proposal?_dropBallot] at hy
  obtain ⟨calls, hp, hr, hsums⟩ := h q y hy
  refine ⟨calls, hp, hr, fun ho f => (hsums ho f).trans ?_⟩
  rw [sumOn_dropBallot, if_neg]
  rintro rfl
  cases hx.symm.trans hy
  cases hc.symm.trans ho

variable {spendable : Account → Int} {p : Int} {voter : Account} {aye : Bool} {weight : Value}
  {now : Int} {plan : VotePlan}

theorem write (h : s.Booked) (hp : Planned s spendable p voter aye weight now plan) :
    (s.write plan).Booked := by
  intro q x hx
  rw [proposal?_write, hp.ballot_proposal] at hx
  split at hx
  · next e =>
    cases hx
    subst e
    obtain ⟨calls, hpaired, hr, hsums⟩ := h _ _ hp.proposal_eq
    obtain ⟨hmore, hsums⟩ := hp.paired_tallyCalls (hsums hp.is_open)
    refine ⟨calls ++ plan.tallyCalls, paired_append.2 ⟨hpaired, hmore⟩, ?_, fun _ f => ?_⟩
    · rw [Tally.performAll_append, hr]
      exact hp.performAll_tallyCalls
    · rw [outstanding_append]
      exact hsums f
  · next hne =>
    obtain ⟨calls, hpaired, hr, hsums⟩ := h q x hx
    refine ⟨calls, hpaired, hr, fun ho f => (hsums ho f).trans ?_⟩
    rw [hp.sumOn_write, if_neg hne]

theorem carry (h : s.Booked) (hp : Planned s spendable p voter aye weight now plan) :
    (s.carry plan).Booked := by
  have hw := h.write hp
  unfold Assembly.carry
  split
  · exact hw.putProposal ((s.proposal?_write plan _).trans (if_pos rfl)) rfl fun _ => rfl
  · exact hw

end Booked

end Assembly

namespace Chamber

variable {σ : Type} [FundLock σ] {c c' : Chamber σ} {call : Call}

theorem Change.booked {events : List Event} {notices : List Log.Notice} {a : Answer}
    (hc : c.Change call c' events notices a) (ho : c.assembly.Orderly) (h : c.assembly.Booked) :
    c'.assembly.Booked := by
  cases hc with
  | registered | unregistered => exact h
  | created _ hx => exact h.create ho hx
  | cancelled hx => exact h.cancel _
  | listed hx hl => exact h.putProposal (checkEditor_eq_ok_iff.1 hx).1 rfl id
  | closed hx hc =>
    exact h.putProposal (Assembly.checkClose_eq_ok_iff.1 hx).1 rfl fun _ => rfl
  | voted _ hp hf => exact h.carry (Assembly.planVote_eq_ok_iff.1 hp)
  | claimed _ hb hf =>
    obtain ⟨-, ⟨x, hx, hclosed⟩, -⟩ := checkClaim_eq_ok_iff.1 hb
    exact h.dropBallot hx hclosed _

/-- Whatever the funds do, tallies come about by calls in pairs. -/
theorem Reachable.booked [Host] {limits : Limits} {clock : Clock} (h : Reachable limits clock c) :
    c.assembly.Booked := by
  refine h.keeps (P := Assembly.Booked) (fun d ho hd call => ?_) (fun _ _ hs => hs)
    (.empty limits clock)
  refine perform_assembly (P := Assembly.Booked) call hd ?_ ?_ ?_
  · exact fun hc => hc.booked ho hd
  · exact fun hc _ => hc.booked ho hd
  · intro _ hh
    cases hh with
    | vote _ hp hf hn hcl => exact hd.write (Assembly.planVote_eq_ok_iff.1 hp)

end Chamber

/-! ### The whole picture -/

theorem perm_of_sums {l m : List Share} (h : ∀ f : Share → Int, (l.map f).sum = (m.map f).sum) :
    l.Perm m := by
  have hcount : ∀ (l : List Share) (k : Share),
      (l.map fun j => if j = k then (1 : Int) else 0).sum = l.count k := by
    intro l k
    induction l with
    | nil => rfl
    | cons j rest ih =>
      rw [List.map_cons, List.sum_cons, ih, List.count_cons]
      by_cases hj : j = k
      · simp [hj, Int.add_comm]
      · simp [hj]
  refine List.perm_iff_count.2 fun k => ?_
  have hk := h fun j => if j = k then 1 else 0
  rw [hcount, hcount] at hk
  exact Int.ofNat.inj hk

namespace Tally

/-- Of calls in pairs: however what they leave in a tally is taken back, the tally is sound after
each call, if and only if all that was in it has fitted after each of them. If so, it is the exact
sum of what is in it. If not, taking back all of it fails with a defect, in whatever order. And the
tally of an open proposal comes about by such calls, whatever the funds let voters lock; what they
leave in it are the live ballots. -/
theorem survives_iff_fits [Host] (limits : Limits) (clock : Clock) :
    (∀ calls, Paired [] calls →
      ((∀ taken : List Share, Paired [] (calls ++ taken.map .remove) →
          Survives (calls ++ taken.map .remove)) ↔ Fits [] calls) ∧
        (Fits [] calls → zero.performAll calls = .ok (exact (outstanding [] calls))) ∧
        (¬ Fits [] calls → ∀ taken : List Share, taken.Perm (outstanding [] calls) →
          ∃ f, zero.performAll (calls ++ taken.map .remove) = .error f ∧ f.kind = .defect)) ∧
      ∀ {σ : Type} [FundLock σ] (c : Chamber σ), c.Reachable limits clock → ∀ p x,
        c.assembly.proposal? p = some x → x.isClosed = false → ∃ calls, Paired [] calls ∧
          zero.performAll calls = .ok x.tally ∧
          (outstanding [] calls).Perm ((c.assembly.ballotsOn p).map Ballot.share) := by
  refine ⟨fun calls hp => ⟨⟨fun h => ?_, fun hf taken ht => ?_⟩, performAll_of_fits hp nofun,
    fun hf taken ht => performAll_removes_of_not_fits hp hf ht⟩, fun c hc p x hx ho => ?_⟩
  · by_contra hf
    obtain ⟨f, hfail, -⟩ := performAll_removes_of_not_fits hp hf (.refl _)
    have hall := paired_append.2 ⟨hp, (removes_of_perm (.refl (outstanding [] calls))).1⟩
    obtain ⟨t, ht, -⟩ := h _ hall _ List.prefix_rfl
    cases ht.symm.trans hfail
  · have hrest := (paired_append.1 ht).2
    have hfits := fits_removes hrest (hp.inRange nofun) (hf calls List.prefix_rfl)
    exact survives_of_fits ht (fits_append hf hfits)
  · obtain ⟨calls, hp, hr, hsums⟩ := hc.booked p x hx
    refine ⟨calls, hp, hr, perm_of_sums fun f => (hsums ho f).trans ?_⟩
    rw [List.map_map]
    rfl

/-- A tally that has been given the largest power on either side gives only one of them back. -/
theorem survives_iff_fits_largest :
    let shares : List Share := [⟨true, maxBalance⟩, ⟨false, maxBalance⟩]
    let calls := shares.map TallyCall.add
    Paired [] calls ∧ ∀ taken : List Share, taken.Perm shares →
      ∃ f, zero.performAll (calls ++ taken.map .remove) = .error f ∧ f.kind = .defect := by
  intro shares calls
  have hp : Paired [] calls := by decide
  have hf : ¬ Fits [] calls := fun h => absurd (h calls List.prefix_rfl) (by decide)
  have h := ((survives_iff_fits .standard .zero).1 calls hp).2.2 hf
  exact ⟨hp, fun taken ht => h taken (ht.trans (List.reverse_perm shares).symm)⟩

/-- Two votes of the largest weight do not fit. Once the one against the proposal has been
withdrawn, more is for it than there is at all, and the other one cannot be withdrawn. -/
theorem withdrawal_is_a_defect :
    let locked := maxWeight * maxWeight
    let calls : List TallyCall := [.add ⟨true, locked⟩, .add ⟨false, locked⟩,
      .remove ⟨false, locked⟩]
    let start := Chamber.empty .standard .zero (⟨maxBalance, false, []⟩ : HostFunds)
    let vote (who : Account) (aye : Bool) (weight : Int) :=
      Call.vote ⟨who, false⟩ 0 (.bool aye) (.int weight)
    let c := start.run [
      .call (.registerVoter .root Chamber.Round.ann),
      .call (.registerVoter .root Chamber.Round.bob),
      .call (.createProposal ⟨Chamber.Round.ann, false⟩
        ⟨.bytes [], .kind .publicVote, .none, 0, 100⟩),
      .call (vote Chamber.Round.ann true maxWeight),
      .call (vote Chamber.Round.bob false maxWeight),
      .call (vote Chamber.Round.bob false 0)]
    let t : Tally := ⟨locked, maxBalance - locked⟩
    Paired [] (calls ++ [.remove ⟨true, locked⟩]) ∧ zero.performAll calls = .ok t ∧
      t.total < t.aye ∧ zero.performAll (calls ++ [.remove ⟨true, locked⟩]) =
        .error (.tallyUnderflow true locked t.aye t.total) ∧
      (c.assembly.proposal? 0).map Proposal.tally = some t ∧
      (c.perform (vote Chamber.Round.ann true 0)).result =
        .error (.tallyUnderflow true locked t.aye t.total) := by
  decide

end Tally

end QuadraticVoting
