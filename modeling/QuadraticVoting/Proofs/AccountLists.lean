import QuadraticVoting.Proofs.Creations
import QuadraticVoting.Proofs.Eligibility

/-!
# First occurrences

An account list keeps of what it is made from the accounts that are new where they stand
(`AccountList.newcomers`). When one more account comes at the end, it is added if it is not there
yet and nothing changes otherwise; this holds of the newcomers (`newcomers_concat`) and of what is
kept (`firstOccurrences_concat`), so both are the same.

`AccountList.bounded_newcomers` tells all that there is to know of a list made under a limit: when
it is refused, what it holds and in which order, whom it lets vote, and which lists it equals.
-/

namespace QuadraticVoting

namespace AccountList

/-- The accounts of a list at those of its places before which they do not stand. -/
def newcomers (l : List Account) : List Account :=
  (l.zipIdx.filter fun e => e.1 ∉ l.take e.2).map Prod.fst

theorem newcomers_sublist (l : List Account) : (newcomers l).Sublist l := by
  have hall : l.zipIdx.map Prod.fst = l := List.zipIdx_map_fst 0 l
  conv => rhs; rw [← hall]
  exact List.filter_sublist.map _

theorem newcomers_concat (l : List Account) (a : Account) :
    newcomers (l ++ [a]) = newcomers l ++ if a ∈ l then [] else [a] := by
  -- What stands before a place of `l` is the same in the longer list.
  have hbefore : (l.zipIdx.filter fun e => e.1 ∉ (l ++ [a]).take e.2) =
      l.zipIdx.filter fun e => e.1 ∉ l.take e.2 := by
    refine List.filter_congr fun e he => ?_
    have hlt : e.2 < l.length := by
      have := List.snd_lt_add_of_mem_zipIdx he
      omega
    rw [List.take_append_of_le_length (Nat.le_of_lt hlt)]
  unfold newcomers
  rw [List.zipIdx_append, List.filter_append, List.map_append, hbefore]
  congr 1
  by_cases h : a ∈ l
  · simp [h]
  · simp [h]

theorem firstOccurrences_concat (l : List Account) (a : Account) :
    firstOccurrences (l ++ [a]) = firstOccurrences l ++ if a ∈ l then [] else [a] := by
  induction l with
  | nil => rfl
  | cons b l ih =>
    rw [List.cons_append, firstOccurrences, firstOccurrences, ih, List.filter_append,
      List.cons_append]
    by_cases h : a ∈ l
    · simp [h]
    · by_cases hb : a = b
      · simp [hb]
      · simp [h, hb]

theorem firstOccurrences_eq_newcomers (l : List Account) : firstOccurrences l = newcomers l := by
  induction l using List.reverseRecOn with
  | nil => rfl
  | append_singleton l a ih => rw [firstOccurrences_concat, newcomers_concat, ih]

theorem members_ofList (l : List Account) : (ofList l).members = newcomers l :=
  firstOccurrences_eq_newcomers l

theorem ofList_members (m : AccountList) : ofList m.members = m := by
  cases m with
  | mk members nodup =>
    unfold ofList
    congr 1
    exact firstOccurrences_of_nodup nodup

theorem ofList_eq_iff {l l' : List Account} :
    ofList l = ofList l' ↔ newcomers l = newcomers l' := by
  rw [← members_ofList, ← members_ofList]
  constructor
  · exact congrArg members
  · intro h
    rw [← ofList_members (ofList l), h, ofList_members]

theorem bounded_accounts_eq_ok_iff {limit : Int} {l : List Account} {m : AccountList} :
    bounded limit (.accounts l) = .ok m ↔ (l.toFinset.card : Int) ≤ limit ∧ m = ofList l := by
  show bounded.check limit (ofList l) = .ok m ↔ _
  unfold bounded.check
  rw [size_ofList]
  split
  · next h => exact ⟨nofun, fun hm => absurd hm.1 (Int.not_le.2 h)⟩
  · next h =>
    rw [Except.ok.injEq]
    exact ⟨fun e => ⟨Int.not_lt.1 h, e.symm⟩, fun hm => hm.2.symm⟩

/-- A list of accounts is made if and only if no more of them differ than the limit allows. What is
made has each of them once, where it first stands, and no other; it has as many as differ, shows
them in this order, and bars them from a public vote or admits them to a private one. Made again
from what it holds, under any limit that leaves room for it, it is the same, and two such lists are
the same if and only if the same accounts are new at first, whatever their limits. -/
theorem bounded_newcomers (l : List Account) (limit : Int) :
    ((∃ m, bounded limit (.accounts l) = .ok m) ↔ (l.toFinset.card : Int) ≤ limit) ∧
      ∀ m, bounded limit (.accounts l) = .ok m →
        m.members = newcomers l ∧ m.members.Sublist l ∧ m.members.Nodup ∧
        m.toValue = .list ((newcomers l).map Account.toValue) ∧
        m.size = l.toFinset.card ∧
        (∀ a, m.contains a = true ↔ a ∈ l) ∧
        (∀ x : Proposal, x.accounts = m →
          ∀ a, x.permits a = true ↔ (a ∈ l ↔ x.kind = .privateVote)) ∧
        (∀ again : Int, m.size ≤ again → bounded again (.accounts m.members) = .ok m) ∧
        ∀ l' limit' m', bounded limit' (.accounts l') = .ok m' →
          (m = m' ↔ newcomers l = newcomers l') := by
  simp only [bounded_accounts_eq_ok_iff]
  refine ⟨⟨fun ⟨m, hm⟩ => hm.1, fun h => ⟨_, h, rfl⟩⟩, ?_⟩
  rintro m ⟨-, rfl⟩
  have hmembers := members_ofList l
  refine ⟨hmembers, hmembers ▸ newcomers_sublist l, (ofList l).nodup, ?_, size_ofList l,
    fun a => contains_ofList, fun x hx a => ?_, fun again hagain => ?_, ?_⟩
  · rw [toValue, hmembers]
  · rw [Proposal.permits_iff, hx]
    exact iff_congr mem_firstOccurrences Iff.rfl
  · have hcard : (ofList l).members.toFinset.card = (ofList l).size :=
      List.toFinset_card_of_nodup (ofList l).nodup
    rw [hcard]
    exact ⟨hagain, (ofList_members _).symm⟩
  · rintro l' limit' m' ⟨-, rfl⟩
    exact ofList_eq_iff

/-- Five accounts of which three differ, one of them absent, fit a limit of three. Another list, in
which the repeated ones stand elsewhere, comes to the same. -/
theorem bounded_newcomers_repeated :
    let ann := Chamber.Round.ann
    let bob := Chamber.Round.bob
    let l : List Account := [bob, ann, bob, .absent, ann]
    let l' : List Account := [bob, bob, ann, .absent]
    ∃ m m', bounded 3 (.accounts l) = .ok m ∧ bounded 7 (.accounts l') = .ok m' ∧
      m.members = [bob, ann, .absent] ∧ m.contains .absent = true ∧ m = m' := by
  intro ann bob l l'
  obtain ⟨m, hm⟩ := (bounded_newcomers l 3).1.2 (by decide)
  obtain ⟨m', hm'⟩ := (bounded_newcomers l' 7).1.2 (by decide)
  obtain ⟨hmembers, -, -, -, -, hcontains, -, -, heq⟩ := (bounded_newcomers l 3).2 m hm
  exact ⟨m, m', hm, hm', hmembers.trans (by decide), (hcontains _).2 (by decide),
    (heq l' 7 m' hm').2 (by decide)⟩

end AccountList

end QuadraticVoting
