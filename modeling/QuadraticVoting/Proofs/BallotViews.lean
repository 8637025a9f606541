import QuadraticVoting.Proofs.Documents
import QuadraticVoting.Proofs.Recovery

/-!
# One set of ballots

An assembly keeps its live ballots in a table of tables, by proposal and then by voter. A table of
one proposal is made when the first ballot on it is cast and goes with the last one, whether that
is withdrawn or claimed, so none is ever empty (`Assembly.Tidy`). Ballots also stand where they say
that they belong (`Assembly.Orderly`).

Together this makes `Assembly.liveBallots` all that there is: whatever is read of the ballots, by
voter, by proposal or in the snapshot, can be read off that one list
(`Chamber.reachable_ballot_views`).
-/

namespace QuadraticVoting

namespace OrdMap

variable {κ ν : Type} [DecidableEq κ] {m : OrdMap κ ν}

theorem isEmpty_insert (m : OrdMap κ ν) (k : κ) (v : ν) : (m.insert k v).isEmpty = false := by
  cases h : (m.insert k v).isEmpty with
  | false => rfl
  | true =>
    have hget := m.get?_insert_self k v
    rw [isEmpty, List.isEmpty_iff] at h
    rw [get?, h] at hget
    cases hget

omit [DecidableEq κ] in
theorem isEmpty_eq_false_iff : m.isEmpty = false ↔ ∃ v, v ∈ m.values := by
  rw [isEmpty, List.isEmpty_eq_false_iff_exists_mem]
  constructor
  · rintro ⟨e, he⟩
    exact ⟨e.2, List.mem_map_of_mem he⟩
  · rintro ⟨v, hv⟩
    obtain ⟨e, he, -⟩ := List.mem_map.1 hv
    exact ⟨e, he⟩

theorem get?_eq_find? [DecidableEq ν] (key : ν → κ) (h : ∀ {k v}, m.get? k = some v → key v = k)
    (k : κ) : m.get? k = m.values.find? fun v => key v = k := by
  cases hfind : m.values.find? fun v => key v = k with
  | none =>
    cases hget : m.get? k with
    | none => rfl
    | some v =>
      have hother := List.find?_eq_none.1 hfind v (mem_values_iff.2 ⟨k, hget⟩)
      exact absurd (decide_eq_true (h hget)) hother
  | some v =>
    obtain ⟨j, hget⟩ := mem_values_iff.1 (List.mem_of_find?_eq_some hfind)
    have hkey : key v = k := by simpa using List.find?_some hfind
    rw [← hkey, h hget, hget]

end OrdMap

namespace Assembly

/-! ### No table is empty -/

/-- Every proposal that has a table of ballots has a ballot in it. -/
structure Tidy (s : Assembly) : Prop where
  filled : ∀ {p m}, s.ballots.get? p = some m → m.isEmpty = false

namespace Tidy

variable {s s' : Assembly} {plan : VotePlan}

theorem empty (limits : Limits) (clock : Clock) : (Assembly.empty limits clock).Tidy :=
  ⟨nofun⟩

theorem congr (h : s.Tidy) (he : s'.ballots = s.ballots) : s'.Tidy := by
  constructor
  intro p m hm
  rw [he] at hm
  exact h.filled hm

theorem putBallot (h : s.Tidy) (b : Ballot) : (s.putBallot b).Tidy := by
  constructor
  intro p m hm
  unfold Assembly.putBallot at hm
  dsimp only at hm
  rw [OrdMap.get?_insert] at hm
  split at hm
  · cases hm
    exact OrdMap.isEmpty_insert ..
  · exact h.filled hm

theorem dropBallot (h : s.Tidy) (q : Int) (v : Account) : (s.dropBallot q v).Tidy := by
  constructor
  intro p m hm
  unfold Assembly.dropBallot at hm
  split at hm
  · exact h.filled hm
  · next old hold =>
    dsimp only at hm
    split at hm
    · -- The table of `q` has gone with its last ballot.
      rw [OrdMap.get?_erase] at hm
      split at hm
      · cases hm
      · exact h.filled hm
    · next hleft =>
      rw [OrdMap.get?_insert] at hm
      split at hm
      · cases hm
        exact Bool.not_eq_true _ ▸ hleft
      · exact h.filled hm

theorem write (h : s.Tidy) (plan : VotePlan) : (s.write plan).Tidy := by
  have hput : (s.putProposal plan.ballot.proposal plan.counted).Tidy := h.congr rfl
  unfold Assembly.write
  split
  · exact hput.putBallot _
  · exact hput.dropBallot ..

theorem carry (h : s.Tidy) (plan : VotePlan) : (s.carry plan).Tidy :=
  (h.write plan).congr (ballots_carry ..)

end Tidy

/-! ### The list and the tables -/

/-- The proposals with live ballots, in increasing order. -/
def polled (s : Assembly) : List Int := (s.liveBallots.map Ballot.proposal).dedup.mergeSort

theorem ballotsOn_eq (s : Assembly) (p : Int) :
    s.ballotsOn p = ((s.ballots.get? p).map OrdMap.values).getD [] := by
  unfold ballotsOn
  cases s.ballots.get? p <;> rfl

/-- Of tables under different keys, whose ballots name their key, one is got by its key. -/
theorem filter_flatMap_values {entries : List (Int × OrdMap Account Ballot)}
    (hn : (entries.map Prod.fst).Nodup)
    (hf : ∀ e ∈ entries, ∀ b ∈ e.2.values, b.proposal = e.1) (p : Int) :
    ((entries.flatMap fun e => e.2.values).filter fun b => b.proposal = p) =
      ((OrdMap.valueAt p entries).map OrdMap.values).getD [] := by
  induction entries with
  | nil => rfl
  | cons e rest ih =>
    rw [List.map_cons, List.nodup_cons] at hn
    have hrest := ih hn.2 fun e' he' => hf e' (List.mem_cons_of_mem _ he')
    have hhead := hf e List.mem_cons_self
    rw [List.flatMap_cons, List.filter_append, hrest, OrdMap.valueAt]
    by_cases he : e.1 = p
    · have hall : (e.2.values.filter fun b => b.proposal = p) = e.2.values :=
        List.filter_eq_self.2 fun b hb => by simpa using (hhead b hb).trans he
      rw [hall, if_pos he, OrdMap.valueAt_eq_none_iff.2 (he ▸ hn.1)]
      exact List.append_nil _
    · have hnone : (e.2.values.filter fun b => b.proposal = p) = [] :=
        List.filter_eq_nil_iff.2 fun b hb => by simpa [hhead b hb] using he
      rw [hnone, if_neg he]
      rfl

namespace Orderly

variable {s : Assembly}

theorem proposal_eq (h : s.Orderly) {e : Int × OrdMap Account Ballot}
    (he : e ∈ s.ballots.entries) {b : Ballot} (hb : b ∈ e.2.values) : b.proposal = e.1 := by
  obtain ⟨v, hv⟩ := OrdMap.mem_values_iff.1 hb
  have hlive : s.ballot? e.1 v = some b := by
    rw [ballot?, OrdMap.mem_entries_iff.1 he]
    exact hv
  exact (h.ballots hlive).proposal_eq

theorem ballotsOn_eq_filter (h : s.Orderly) (p : Int) :
    s.ballotsOn p = s.liveBallots.filter fun b => b.proposal = p := by
  have hlist : s.liveBallots = s.ballots.entries.flatMap fun e => e.2.values := List.flatMap_map ..
  rw [hlist, filter_flatMap_values s.ballots.nodup (fun e he b hb => h.proposal_eq he hb) p]
  exact s.ballotsOn_eq p

theorem ballot?_eq_find? (h : s.Orderly) (p : Int) (v : Account) :
    s.ballot? p v = s.liveBallots.find? fun b => b.proposal = p ∧ b.voter = v := by
  have hfind : (s.liveBallots.find? fun b => b.proposal = p ∧ b.voter = v) =
      (s.ballotsOn p).find? fun b => b.voter = v := by
    rw [h.ballotsOn_eq_filter, List.find?_filter]
    simp only [Bool.decide_and, Bool.decide_eq_true]
  rw [hfind, ballotsOn_eq, ballot?]
  cases hm : s.ballots.get? p with
  | none => rfl
  | some m => exact OrdMap.get?_eq_find? Ballot.voter (h.voter_eq hm) v

theorem hasVoted_iff (h : s.Orderly) (p : Int) (v : Account) :
    s.hasVoted p v = true ↔ ∃ b ∈ s.liveBallots, b.proposal = p ∧ b.voter = v := by
  rw [hasVoted, h.ballot?_eq_find?, List.find?_isSome]
  simp only [decide_eq_true_eq]

end Orderly

theorem lockedOn_eq (s : Assembly) (p : Int) : s.lockedOn p = power (s.ballotsOn p) := by
  unfold lockedOn power
  induction s.ballotsOn p with
  | nil => rfl
  | cons b l ih => rw [List.foldr_cons, ih, List.map_cons, List.sum_cons]

theorem mem_polled_iff {s : Assembly} {p : Int} :
    p ∈ s.polled ↔ ∃ b ∈ s.liveBallots, b.proposal = p := by
  rw [polled, List.mem_mergeSort, List.mem_dedup, List.mem_map]

theorem pairwise_polled (s : Assembly) : s.polled.Pairwise (· < ·) := by
  have hsorted : s.polled.Pairwise (· ≤ ·) := List.pairwise_mergeSort' (· ≤ ·) _
  have hnodup : s.polled.Nodup := (List.mergeSort_perm _ _).nodup_iff.2 (List.nodup_dedup _)
  exact hsorted.imp₂ (fun _ _ hle hne => lt_of_le_of_ne hle hne) hnodup

section Snapshot

variable {s : Assembly}

theorem mem_keys_iff (h : s.Orderly) (ht : s.Tidy) {p : Int} :
    p ∈ s.ballots.keys ↔ p ∈ s.polled := by
  rw [mem_polled_iff]
  constructor
  · intro hp
    obtain ⟨e, he, rfl⟩ := List.mem_map.1 hp
    obtain ⟨b, hb⟩ := OrdMap.isEmpty_eq_false_iff.1 (ht.filled (OrdMap.mem_entries_iff.1 he))
    have hlive : b ∈ s.liveBallots :=
      List.mem_flatMap.2 ⟨e.2, List.mem_map_of_mem he, hb⟩
    exact ⟨b, hlive, h.proposal_eq he hb⟩
  · rintro ⟨b, hb, rfl⟩
    obtain ⟨m, hm, -⟩ := Option.bind_eq_some_iff.1 (h.ballot?_of_mem hb)
    exact List.mem_map_of_mem (OrdMap.mem_of_valueAt hm)

theorem map_fst_byId (h : s.Orderly) (ht : s.Tidy) :
    (byId s.ballots).map Prod.fst = s.polled := by
  have hperm : ((byId s.ballots).map Prod.fst).Perm s.ballots.keys :=
    (List.mergeSort_perm ..).map _
  have hsorted : ((byId s.ballots).map Prod.fst).Pairwise (· ≤ ·) := by
    refine List.pairwise_map.2 ((List.pairwise_mergeSort ?_ ?_ _).imp of_decide_eq_true)
    · simp only [decide_eq_true_eq]
      exact fun _ _ _ => Int.le_trans
    · simp only [Bool.or_eq_true, decide_eq_true_eq]
      exact fun _ _ => Int.le_total _ _
  have hkeys : s.ballots.keys.Perm s.polled :=
    (List.perm_ext_iff_of_nodup s.ballots.nodup (s.pairwise_polled.imp Int.ne_of_lt)).2
      fun _ => mem_keys_iff h ht
  exact (hperm.trans hkeys).eq_of_pairwise (fun _ _ _ _ => Int.le_antisymm) hsorted
    (s.pairwise_polled.imp Int.le_of_lt)

theorem ballotsValue_eq (h : s.Orderly) (ht : s.Tidy) : s.ballotsValue =
    .table [("votes", .table (s.polled.map fun p =>
      (toString p, .list ((s.ballotsOn p).map Ballot.toValue))))] := by
  have hrows : (byId s.ballots).map (fun e => ((toString e.1 : Text),
        Value.list (e.2.values.map Ballot.toValue))) =
      s.polled.map fun p => ((toString p : Text), .list ((s.ballotsOn p).map Ballot.toValue)) := by
    rw [← map_fst_byId h ht, List.map_map]
    refine List.map_congr_left fun e he => ?_
    have hget := OrdMap.mem_entries_iff.1 (List.mem_mergeSort.1 he)
    simp only [Function.comp_apply, ballotsOn_eq, hget, Option.map_some, Option.getD_some]
  unfold ballotsValue
  exact congrArg (fun rows => Value.table [("votes", .table rows)]) hrows

end Snapshot

end Assembly

/-! ### Calls and steps -/

namespace Chamber

variable {σ : Type} [FundLock σ] {c c' : Chamber σ} {call : Call}

theorem Change.tidy {events : List Event} {notices : List Log.Notice} {a : Answer}
    (hc : c.Change call c' events notices a) (h : c.assembly.Tidy) : c'.assembly.Tidy := by
  cases hc with
  | registered | unregistered | created | cancelled | listed | closed => exact h.congr rfl
  | voted ho hp hf => exact h.carry _
  | claimed ho hb hf => exact h.dropBallot ..

section AnyHost

variable [Host]

theorem perform_tidy (h : c.assembly.Tidy) (call : Call) :
    (c.perform call).state.assembly.Tidy := by
  cases c.perform_course call with
  | refused hx hr hs | quiet hq hr hs | muted hq hr hs => rw [hs]; exact h
  | unfunded hu hr hs => rw [hs]; exact h
  | done hc hn hr hs => rw [hs]; exact (hc.tidy h).congr rfl
  | untold hc hn hr hs => rw [hs]; exact hc.tidy h
  | halfway hh hr hs =>
    rw [hs]
    cases hh with
    | vote => exact h.write _

theorem step_tidy (h : c.assembly.Tidy) (s : Step) : (c.step s).state.assembly.Tidy := by
  cases s with
  | call x => exact perform_tidy h x
  | setBlock n => exact h.congr rfl
  | advance n => exact h.congr rfl

theorem Reachable.tidy {limits : Limits} {clock : Clock} (h : Reachable limits clock c) :
    c.assembly.Tidy := by
  induction h with
  | start funds => exact .empty limits clock
  | step _ s ih => exact step_tidy ih s
  | host _ funds ih => exact ih

/-- Whatever the funds answer and wherever the clock is moved, no proposal has an empty table of
ballots, and a ballot is kept under the proposal and the voter that it names, with a weight from one
up to the largest. So all that is read of the ballots is read off the list of the live ones: the
ballot of a voter, whether there is one, the ballots on a proposal, how many they are and what they
lock, and the snapshot, in which a proposal stands if and only if there is a live ballot on it. -/
theorem reachable_ballot_views (limits : Limits) (clock : Clock) (h : c.Reachable limits clock) :
    let s := c.assembly
    (∀ p m, s.ballots.get? p = some m → m.isEmpty = false ∧
      ∀ v b, m.get? v = some b →
        b.proposal = p ∧ b.voter = v ∧ 1 ≤ b.weight ∧ b.weight ≤ maxWeight) ∧
      s.liveBallots.Nodup ∧
      (∀ p v, s.ballot? p v = s.liveBallots.find? fun b => b.proposal = p ∧ b.voter = v) ∧
      (∀ p v, s.hasVoted p v = true ↔ ∃ b ∈ s.liveBallots, b.proposal = p ∧ b.voter = v) ∧
      (∀ p, s.ballotsOn p = s.liveBallots.filter (fun b => b.proposal = p) ∧
        s.voterCount p = (s.ballotsOn p).length ∧ s.lockedOn p = power (s.ballotsOn p)) ∧
      s.ballotsValue = .table [("votes", .table (s.polled.map fun p =>
        (toString p, .list ((s.ballotsOn p).map Ballot.toValue))))] ∧
      s.polled.Pairwise (· < ·) ∧
      ∀ p, p ∈ s.polled ↔ ∃ v, s.hasVoted p v = true := by
  intro s
  have ho : s.Orderly := h.orderly
  have ht : s.Tidy := h.tidy
  refine ⟨fun p m hm => ⟨ht.filled hm, fun v b hb => ?_⟩, ho.nodup_liveBallots, ho.ballot?_eq_find?,
    ho.hasVoted_iff, fun p => ⟨ho.ballotsOn_eq_filter p, rfl, s.lockedOn_eq p⟩,
    Assembly.ballotsValue_eq ho ht, s.pairwise_polled, fun p => ?_⟩
  · have hlive : s.ballot? p v = some b := by
      rw [Assembly.ballot?, hm]
      exact hb
    have hfiled := ho.ballots hlive
    exact ⟨hfiled.proposal_eq, hfiled.voter_eq, hfiled.weight_pos, hfiled.weight_le⟩
  · rw [Assembly.mem_polled_iff]
    constructor
    · rintro ⟨b, hb, hp⟩
      exact ⟨b.voter, (ho.hasVoted_iff p b.voter).2 ⟨b, hb, hp, rfl⟩⟩
    · rintro ⟨v, hv⟩
      obtain ⟨b, hb, hp, -⟩ := (ho.hasVoted_iff p v).1 hv
      exact ⟨b, hb, hp⟩

end AnyHost

/-- Two proposals, three ballots, and one of them withdrawn again, which was the only one on its
proposal; a clock that goes back does not bring it up again. -/
theorem reachable_ballot_views_withdrawn :
    let start := Chamber.empty .standard .zero (⟨50, false, []⟩ : HostFunds)
    let c := start.run [
      .call (.registerVoter .root Round.ann),
      .call (.registerVoter .root Round.bob),
      .call (.createProposal ⟨Round.ann, false⟩ ⟨.bytes [], .kind .publicVote, .none, 1, 101⟩),
      .call (.createProposal ⟨Round.ann, false⟩ ⟨.bytes [], .kind .publicVote, .none, 1, 101⟩),
      .advance 1,
      .call (.vote ⟨Round.bob, false⟩ 1 (.bool true) (.int 5)),
      .call (.vote ⟨Round.bob, false⟩ 0 (.bool false) (.int 2)),
      .call (.vote ⟨Round.ann, false⟩ 0 (.bool true) (.int 3)),
      .call (.vote ⟨Round.bob, false⟩ 1 (.bool true) (.int 0)),
      .setBlock 0]
    let s := c.assembly
    c.Reachable .standard .zero ∧ s.polled = [0] ∧ s.lockedOn 0 = 13 ∧
      s.ballotsValue = .table [("votes", .table [("0", .list [
        Ballot.toValue ⟨0, Round.bob, false, 2⟩, Ballot.toValue ⟨0, Round.ann, true, 3⟩])])] := by
  intro start c s
  have hreach : c.Reachable .standard .zero := (Reachable.start _).run _
  have hlive : s.liveBallots = [⟨0, Round.bob, false, 2⟩, ⟨0, Round.ann, true, 3⟩] := by decide
  obtain ⟨-, -, -, -, hviews, hvalue, -, -⟩ := reachable_ballot_views .standard .zero hreach
  obtain ⟨hon, -, hlocked⟩ := hviews 0
  have hpolled : s.polled = [0] := by
    have hdedup : (s.liveBallots.map Ballot.proposal).dedup = [0] := by rw [hlive]; rfl
    rw [Assembly.polled, hdedup, List.mergeSort_singleton]
  have hpair : s.ballotsOn 0 = [⟨0, Round.bob, false, 2⟩, ⟨0, Round.ann, true, 3⟩] := by
    rw [hon, hlive]
    rfl
  refine ⟨hreach, hpolled, hlocked.trans (by rw [hpair]; rfl), hvalue.trans ?_⟩
  rw [hpolled, List.map_singleton, hpair]
  rfl

end Chamber

end QuadraticVoting
