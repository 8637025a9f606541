import QuadraticVoting.Proofs.Course
import QuadraticVoting.Proofs.Sums

/-!
# Sums over the live ballots

`Assembly.ballotSum` adds up a quantity over all live ballots and `Assembly.sumOn` over those on
one proposal. Casting, replacing or dropping a ballot changes either by the new ballot less the one
that was there, and no more than that.
-/

namespace QuadraticVoting

/-- The sum of the squared weights of some ballots. -/
def power (l : List Ballot) : Int := (l.map Ballot.locked).sum

theorem power_nonneg (l : List Ballot) : 0 ≤ power l := by
  refine List.sum_nonneg fun x hx => ?_
  obtain ⟨b, -, rfl⟩ := List.mem_map.1 hx
  exact b.locked_nonneg

namespace Ballot

/-- What a ballot locks of one account's funds. -/
def shareOf (a : Account) (b : Ballot) : Int := if b.voter = a then b.locked else 0

/-- What a ballot adds to the aye power. -/
def ayePower (b : Ballot) : Int := if b.aye then b.locked else 0

theorem ayePower_nonneg (b : Ballot) : 0 ≤ b.ayePower := by
  unfold ayePower
  split
  · exact b.locked_nonneg
  · exact Int.le_refl 0

theorem ayePower_le (b : Ballot) : b.ayePower ≤ b.locked := by
  unfold ayePower
  split
  · exact Int.le_refl _
  · exact b.locked_nonneg

end Ballot

theorem power_filter (q : Ballot → Bool) (l : List Ballot) :
    power (l.filter q) = (l.map fun b => if q b then b.locked else 0).sum := by
  induction l with
  | nil => rfl
  | cons b l ih =>
    rw [List.map_cons, List.sum_cons, ← ih]
    cases h : q b
    · simp [h]
    · simp [h, power]

namespace Assembly

def liveBallots (s : Assembly) : List Ballot := s.ballots.values.flatMap OrdMap.values

/-- The live ballots of an account, on all proposals. -/
def ballotsOf (s : Assembly) (a : Account) : List Ballot := s.liveBallots.filter (·.voter = a)

def ballotSum (s : Assembly) (f : Ballot → Int) : Int := s.ballots.sumOf fun m => m.sumOf f

def sumOn (s : Assembly) (p : Int) (f : Ballot → Int) : Int := ((s.ballotsOn p).map f).sum

theorem sum_liveBallots (s : Assembly) (f : Ballot → Int) :
    (s.liveBallots.map f).sum = s.ballotSum f := by
  unfold liveBallots ballotSum OrdMap.sumOf
  induction s.ballots.values with
  | nil => rfl
  | cons m l ih => simp [ih]

theorem power_ballotsOf (s : Assembly) (a : Account) :
    power (s.ballotsOf a) = s.ballotSum (Ballot.shareOf a) := by
  rw [ballotsOf, power_filter, ← sum_liveBallots]
  simp only [decide_eq_true_eq]
  rfl

theorem sumOn_eq (s : Assembly) (p : Int) (f : Ballot → Int) :
    s.sumOn p f = ((s.ballots.get? p).map (·.sumOf f)).getD 0 := by
  unfold sumOn ballotsOn
  cases s.ballots.get? p <;> rfl

theorem sumOn_le_ballotSum (s : Assembly) (p : Int) {f : Ballot → Int} (hf : ∀ b, 0 ≤ f b) :
    s.sumOn p f ≤ s.ballotSum f := by
  have hpos : ∀ m ∈ s.ballots.values, 0 ≤ m.sumOf f := fun m _ =>
    OrdMap.sumOf_nonneg fun b _ => hf b
  rw [sumOn_eq]
  cases h : s.ballots.get? p with
  | none => exact OrdMap.sumOf_nonneg hpos
  | some m => exact OrdMap.le_sumOf (f := fun m : OrdMap Account Ballot => m.sumOf f) hpos h

theorem le_sumOn {s : Assembly} {p : Int} {v : Account} {b : Ballot} {f : Ballot → Int}
    (hf : ∀ b, 0 ≤ f b) (h : s.ballot? p v = some b) : f b ≤ s.sumOn p f := by
  rw [sumOn_eq]
  unfold ballot? at h
  cases hm : s.ballots.get? p with
  | none => rw [hm] at h; cases h
  | some m =>
    rw [hm] at h
    exact OrdMap.le_sumOf (fun b _ => hf b) h

theorem ballotsOn_eq_nil {s : Assembly} {p : Int} (h : ∀ v, s.ballot? p v = none) :
    s.ballotsOn p = [] := by
  unfold ballotsOn
  split
  · next m hm =>
    refine List.eq_nil_iff_forall_not_mem.2 fun b hb => ?_
    obtain ⟨v, hv⟩ := OrdMap.mem_values_iff.1 hb
    have hn := h v
    rw [ballot?, hm, Option.bind_some, hv] at hn
    cases hn
  · rfl

/-! ### Casting and dropping -/

theorem sumOf_of_isEmpty {m : OrdMap Account Ballot} (h : m.isEmpty = true) (f : Ballot → Int) :
    m.sumOf f = 0 := by
  rw [OrdMap.sumOf_eq]
  rw [OrdMap.isEmpty, List.isEmpty_iff] at h
  rw [h]
  rfl

theorem ballotSum_putBallot (s : Assembly) (b : Ballot) (f : Ballot → Int) :
    (s.putBallot b).ballotSum f =
      s.ballotSum f - ((s.ballot? b.proposal b.voter).map f).getD 0 + f b := by
  unfold putBallot ballotSum ballot?
  rw [OrdMap.sumOf_insert]
  cases h : s.ballots.get? b.proposal with
  | none =>
    rw [Option.getD_none, OrdMap.sumOf_insert]
    simp
  | some m =>
    rw [Option.getD_some, OrdMap.sumOf_insert, Option.map_some, Option.getD_some, Option.bind_some]
    omega

theorem ballotSum_dropBallot (s : Assembly) (p : Int) (v : Account) (f : Ballot → Int) :
    (s.dropBallot p v).ballotSum f = s.ballotSum f - ((s.ballot? p v).map f).getD 0 := by
  unfold dropBallot ballot?
  cases h : s.ballots.get? p with
  | none => simp
  | some m =>
    have he := OrdMap.sumOf_erase m f v
    simp only [Option.bind_some]
    unfold ballotSum
    dsimp only
    split
    · next hemp =>
      have h0 := sumOf_of_isEmpty hemp f
      rw [OrdMap.sumOf_erase, h, Option.map_some, Option.getD_some]
      omega
    · rw [OrdMap.sumOf_insert, h, Option.map_some, Option.getD_some]
      omega

theorem sumOn_putBallot (s : Assembly) (b : Ballot) (p : Int) (f : Ballot → Int) :
    (s.putBallot b).sumOn p f =
      if p = b.proposal then s.sumOn p f - ((s.ballot? p b.voter).map f).getD 0 + f b
      else s.sumOn p f := by
  simp only [sumOn_eq, putBallot, ballot?, OrdMap.get?_insert]
  by_cases hp : p = b.proposal
  · subst hp
    simp only [if_true, Option.map_some, Option.getD_some, OrdMap.sumOf_insert]
    cases h : s.ballots.get? b.proposal <;> simp
  · simp [hp]

theorem sumOn_dropBallot (s : Assembly) (q : Int) (v : Account) (p : Int) (f : Ballot → Int) :
    (s.dropBallot q v).sumOn p f =
      if p = q then s.sumOn p f - ((s.ballot? p v).map f).getD 0 else s.sumOn p f := by
  by_cases hp : p = q
  · subst hp
    simp only [sumOn_eq, if_true]
    unfold dropBallot ballot?
    cases h : s.ballots.get? p with
    | none => simp [h]
    | some m =>
      have he := OrdMap.sumOf_erase m f v
      dsimp only
      split
      · next hemp =>
        have h0 := sumOf_of_isEmpty hemp f
        simp only [OrdMap.get?_erase_self, Option.map_none, Option.getD_none, Option.map_some,
          Option.getD_some, Option.bind_some]
        omega
      · simp only [OrdMap.get?_insert_self, Option.map_some, Option.getD_some, Option.bind_some]
        omega
  · simp only [sumOn_eq, hp, if_false]
    unfold dropBallot
    split
    · rfl
    · dsimp only
      split
      · rw [OrdMap.get?_erase_of_ne _ hp]
      · rw [OrdMap.get?_insert_of_ne _ _ hp]

/-! ### Writing a vote down -/

theorem ballotSum_write (s : Assembly) (plan : VotePlan) (f : Ballot → Int) :
    (s.write plan).ballotSum f = s.ballotSum f -
      ((s.ballot? plan.ballot.proposal plan.ballot.voter).map f).getD 0 +
      (plan.current.map f).getD 0 := by
  unfold write VotePlan.current
  split
  · exact ballotSum_putBallot ..
  · refine (ballotSum_dropBallot ..).trans ?_
    exact (Int.add_zero _).symm

theorem sumOn_write (s : Assembly) (plan : VotePlan) (p : Int) (f : Ballot → Int) :
    (s.write plan).sumOn p f = if p = plan.ballot.proposal then
      s.sumOn p f - ((s.ballot? p plan.ballot.voter).map f).getD 0 + (plan.current.map f).getD 0
    else s.sumOn p f := by
  unfold write VotePlan.current
  split
  · exact sumOn_putBallot ..
  · refine (sumOn_dropBallot ..).trans ?_
    split
    · exact (Int.add_zero _).symm
    · rfl

theorem ballotSum_congr {s s' : Assembly} (h : s'.ballots = s.ballots) (f : Ballot → Int) :
    s'.ballotSum f = s.ballotSum f := by
  unfold ballotSum
  rw [h]

end Assembly

end QuadraticVoting
