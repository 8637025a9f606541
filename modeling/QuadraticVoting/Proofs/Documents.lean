import QuadraticVoting.Assembly.Snapshot
import QuadraticVoting.Proofs.Isolation
import QuadraticVoting.Proofs.Likeness

/-!
# What documents show

The document of a record shows all of it: records with the same document are the same
(`Proposal.toValue_injective`, `Ballot.toValue_injective`). The document of an assembly leaves out
the limits, the order in which voters and ids came in, and all of the journal but its length, and
nothing else: assemblies with the same limits and the same document are like each other
(`Assembly.like_of_toValue_eq`), and the other way round (`Assembly.Like.toValue_eq`).

`Ledger.Document` is what a ledger shows of itself when its tables are compared as tables, with
accounts as keys and in no order. `Ledger.toValue` lists the same tables in the order in which the
accounts came in, and writes the same key for the absent account and for one that is named `null`.
-/

namespace QuadraticVoting

/-! ### Sorting -/

theorem eq_of_map_eq_map {α β : Type} {f : α → β} {l l' : List α}
    (hf : ∀ a ∈ l, ∀ b ∈ l', f a = f b → a = b) (h : l.map f = l'.map f) : l = l' := by
  induction l generalizing l' with
  | nil => exact (List.map_eq_nil_iff.1 h.symm).symm
  | cons a l ih =>
    cases l' with
    | nil => cases h
    | cons b l' =>
      obtain ⟨hab, hrest⟩ := List.cons.inj h
      rw [hf a List.mem_cons_self b List.mem_cons_self hab]
      exact congrArg _ <| ih (fun a ha b hb =>
        hf a (List.mem_cons_of_mem _ ha) b (List.mem_cons_of_mem _ hb)) hrest

section Sorting

variable {α : Type} {le : α → α → Bool} {l l' : List α}

theorem mergeSort_eq_of_perm (trans : ∀ a b c, le a b = true → le b c = true → le a c = true)
    (total : ∀ a b, (le a b || le b a) = true)
    (antisymm : ∀ a ∈ l, ∀ b ∈ l, le a b = true → le b a = true → a = b) (h : l'.Perm l) :
    l'.mergeSort le = l.mergeSort le := by
  have hsorted : (l'.mergeSort le).Perm (l.mergeSort le) :=
    ((l'.mergeSort_perm le).trans h).trans (l.mergeSort_perm le).symm
  refine List.Perm.eq_of_pairwise (fun a b ha hb => ?_) (List.pairwise_mergeSort trans total l')
    (List.pairwise_mergeSort trans total l) hsorted
  exact antisymm a (h.mem_iff.1 (List.mem_mergeSort.1 ha)) b (List.mem_mergeSort.1 hb)

theorem perm_of_mergeSort_eq (h : l'.mergeSort le = l.mergeSort le) : l'.Perm l :=
  (l'.mergeSort_perm le).symm.trans (h ▸ l.mergeSort_perm le)

end Sorting

namespace Text

theorem notAfter_iff {a b : List Nat} : notAfter a b = true ↔ ¬ b < a := by
  induction a generalizing b with
  | nil => simp [notAfter]
  | cons x a ih =>
    cases b with
    | nil => simp [notAfter]
    | cons y b =>
      simp only [notAfter, Bool.or_eq_true, Bool.and_eq_true, decide_eq_true_eq, beq_iff_eq, ih,
        List.cons_lt_cons_iff]
      rcases Nat.lt_trichotomy x y with h | h | h
      · simp [h, Nat.lt_asymm h, Nat.ne_of_gt h]
      · simp [h]
      · simp [h, Nat.lt_asymm h, Nat.ne_of_gt h]

theorem le_iff {s t : Text} : s ≤ t ↔ s.numbers ≤ t.numbers := notAfter_iff.trans not_lt

theorem numbers_injective : Function.Injective numbers := by
  intro s t h
  have hnumber : Function.Injective CodePoint.number :=
    Function.LeftInverse.injective CodePoint.ofNat_number
  cases s
  cases t
  exact congrArg Text.ofList (List.map_injective_iff.2 hnumber h)

theorem eq_of_le_of_le {s t : Text} (h : s ≤ t) (h' : t ≤ s) : s = t :=
  numbers_injective (le_antisymm (le_iff.1 h) (le_iff.1 h'))

theorem ofString_injective : Function.Injective ofString := fun _ _ => ofString_inj.1

end Text

namespace OrdMap

variable {κ ν : Type} [DecidableEq κ] {m m' : OrdMap κ ν}

theorem mem_entries_iff {e : κ × ν} : e ∈ m.entries ↔ m.get? e.1 = some e.2 :=
  ⟨valueAt_of_mem m.nodup, mem_of_valueAt⟩

theorem agrees_iff_perm : m.Agrees m' ↔ m'.entries.Perm m.entries := by
  rw [List.perm_ext_iff_of_nodup (.of_map _ m'.nodup) (.of_map _ m.nodup)]
  constructor
  · intro h e
    rw [mem_entries_iff, mem_entries_iff, h e.1]
  · intro h k
    refine Option.ext fun v => ?_
    have hmem := h (k, v)
    rwa [mem_entries_iff, mem_entries_iff] at hmem

theorem Agrees.size_eq (h : m.Agrees m') : m'.size = m.size := (agrees_iff_perm.1 h).length_eq

theorem Agrees.keys_perm (h : m.Agrees m') : m'.keys.Perm m.keys := (agrees_iff_perm.1 h).map _

theorem eq_of_values_eq (key : ν → κ) (h : ∀ {k v}, m.get? k = some v → key v = k)
    (h' : ∀ {k v}, m'.get? k = some v → key v = k) (e : m'.values = m.values) : m' = m := by
  refine ext_entries ?_
  rw [← map_values_eq_entries key h, ← map_values_eq_entries key h', e]

end OrdMap

/-! ### Records -/

theorem Account.toValue_injective : Function.Injective Account.toValue := by
  intro a b h
  cases a <;> cases b <;> cases h <;> rfl

theorem Account.eq_of_text_eq {a b : Account} (ha : a.isGiven = true) (hb : b.isGiven = true)
    (h : a.text = b.text) : a = b := by
  cases a with
  | absent => cases ha
  | named s =>
    cases b with
    | absent => cases hb
    | named t => exact congrArg named h

theorem AccountList.toValue_injective : Function.Injective AccountList.toValue := by
  intro l l' h
  have hmembers := List.map_injective_iff.2 Account.toValue_injective (Value.list.inj h)
  cases l
  cases l'
  cases hmembers
  rfl

namespace Text

theorem digitChar_injective {m n : Nat} (hm : m < 16) (hn : n < 16)
    (h : Nat.digitChar m = Nat.digitChar n) : m = n := by
  have hall : ∀ i j : Fin 16, Nat.digitChar i = Nat.digitChar j → i = j := by decide
  exact congrArg Fin.val (hall ⟨m, hm⟩ ⟨n, hn⟩ h)

theorem hexDigits_injective {w m n : Nat} (hm : m < 16 ^ w) (hn : n < 16 ^ w)
    (h : hexDigits w m = hexDigits w n) : m = n := by
  induction w generalizing m n with
  | zero => omega
  | succ w ih =>
    obtain ⟨hhigh, hlow⟩ := List.append_inj' h rfl
    have hquot : m / 16 = n / 16 := by
      refine ih ?_ ?_ hhigh
      · exact Nat.div_lt_of_lt_mul (by rwa [Nat.pow_succ'] at hm)
      · exact Nat.div_lt_of_lt_mul (by rwa [Nat.pow_succ'] at hn)
    have hrem : m % 16 = n % 16 := digitChar_injective (Nat.mod_lt _ (by decide))
      (Nat.mod_lt _ (by decide)) (List.singleton_inj.1 hlow)
    omega

theorem hexText_injective : Function.Injective hexText := by
  intro l l' h
  have hdigits := String.ofList_injective h
  clear h
  induction l generalizing l' with
  | nil =>
    cases l' with
    | nil => rfl
    | cons b l' => exact absurd hdigits (List.cons_ne_nil _ _).symm
  | cons a l ih =>
    cases l' with
    | nil => exact absurd hdigits (List.cons_ne_nil _ _)
    | cons b l' =>
      rw [List.flatMap_cons, List.flatMap_cons] at hdigits
      obtain ⟨hbyte, hrest⟩ := List.append_inj hdigits
        ((length_hexDigits ..).trans (length_hexDigits ..).symm)
      have hab : a = b := UInt8.toNat_inj.1 (hexDigits_injective a.toNat_lt b.toNat_lt hbyte)
      rw [hab, ih hrest]

end Text

theorem Kind.name_injective : Function.Injective Kind.name := by
  intro a b
  cases a <;> cases b <;> decide

theorem Stage.name_injective : Function.Injective Stage.name := by
  intro a b h
  have hab := congrArg Stage.ofName? h
  rw [ofName?_name, ofName?_name] at hab
  exact Option.some.inj hab

theorem Tally.toValue_injective : Function.Injective Tally.toValue := by
  intro t t' h
  simp only [toValue, Value.table.injEq, List.cons.injEq, Prod.mk.injEq, Value.int.injEq] at h
  cases t
  cases t'
  cases h.1.2
  cases h.2.1.2
  rfl

theorem Proposal.toValue_injective : Function.Injective Proposal.toValue := by
  intro x y h
  simp only [toValue, Value.table.injEq, List.cons.injEq, Prod.mk.injEq, Value.int.injEq,
    Value.text.injEq, true_and, and_true] at h
  obtain ⟨hid, hcreator, hdata, hkind, haccounts, hstart, hstop, hstatus, htally⟩ := h
  have hcreator' := Account.toValue_injective hcreator
  have hdata' := Text.hexText_injective (Text.ofString_injective hdata)
  have hkind' := Kind.name_injective (Text.ofString_injective hkind)
  have haccounts' := AccountList.toValue_injective haccounts
  have hstatus' := Stage.name_injective (Text.ofString_injective hstatus)
  have htally' := Tally.toValue_injective htally
  cases x
  cases y
  congr

theorem Ballot.toValue_injective : Function.Injective Ballot.toValue := by
  intro b b' h
  simp only [toValue, Value.table.injEq, List.cons.injEq, Prod.mk.injEq, Value.int.injEq,
    Value.text.injEq, true_and, and_true] at h
  obtain ⟨hproposal, hvoter, haye, hweight, -⟩ := h
  have hvoter' := Account.toValue_injective hvoter
  have haye' : b.aye = b'.aye := by
    have hdirection := Text.ofString_injective haye
    revert hdirection
    cases b.aye <;> cases b'.aye <;> decide
  cases b
  cases b'
  congr

/-! ### Registries -/

namespace Registry

variable {r r' : Registry}

theorem Like.perm (h : r.Like r') : r'.voters.Perm r.voters :=
  (List.perm_ext_iff_of_nodup r'.nodup r.nodup).2 h

theorem Like.size_eq (h : r.Like r') : r'.size = r.size := h.perm.length_eq

theorem Like.describe_eq (h : r.Like r') : r'.describe = r.describe := by
  unfold describe
  rw [h.size_eq]

theorem Like.sorted_eq (h : r.Like r') (hg : ∀ v ∈ r.voters, v.isGiven = true) :
    r'.sorted = r.sorted := by
  refine mergeSort_eq_of_perm ?_ ?_ ?_ h.perm
  · simp only [decide_eq_true_eq, Text.le_iff]
    exact fun _ _ _ => le_trans
  · simp only [Bool.or_eq_true, decide_eq_true_eq, Text.le_iff]
    exact fun a b => le_total _ _
  · simp only [decide_eq_true_eq]
    exact fun a ha b hb hab hba =>
      Account.eq_of_text_eq (hg a ha) (hg b hb) (Text.eq_of_le_of_le hab hba)

theorem Like.toValue_eq (h : r.Like r') (hg : ∀ v ∈ r.voters, v.isGiven = true) :
    r'.toValue = r.toValue := by
  unfold toValue
  rw [h.sorted_eq hg, h.size_eq]

theorem like_of_toValue_eq (h : r'.toValue = r.toValue) : r.Like r' := by
  simp only [toValue, Value.table.injEq, List.cons.injEq, Prod.mk.injEq, Value.list.injEq,
    true_and] at h
  have hsorted := List.map_injective_iff.2 Account.toValue_injective h.1
  exact fun v => (perm_of_mergeSort_eq hsorted).mem_iff

end Registry

/-! ### Ledgers -/

namespace Ledger

/-- What a ledger shows of itself. Its tables have no order. -/
structure Document where
  symbol : Text
  issuance : Int
  balances : Account → Option Int
  frozen : Account → Option Int

def document (l : Ledger) : Document := ⟨l.symbol, l.issuance, l.balances.get?, l.frozen.get?⟩

variable {l l' : Ledger} {old old' : List LedgerEvent}

theorem like_of_document_eq (h : l'.document = l.document) : Like l.journal l'.journal l l' := by
  simp only [document, Document.mk.injEq] at h
  obtain ⟨hsymbol, hissuance, hbalances, hfrozen⟩ := h
  exact ⟨hsymbol, hissuance, congrFun hbalances, congrFun hfrozen, .refl ..⟩

theorem Like.document_eq (h : Like old old' l l') : l'.document = l.document := by
  simp only [document, Document.mk.injEq]
  exact ⟨h.symbol_eq, h.issuance_eq, funext h.balances, funext h.frozen⟩

end Ledger

/-! ### Assemblies -/

namespace Assembly

theorem byId_eq_iff {α : Type} {m m' : OrdMap Int α} : byId m' = byId m ↔ m.Agrees m' := by
  constructor
  · exact fun h => OrdMap.agrees_iff_perm.2 (perm_of_mergeSort_eq h)
  · intro h
    refine mergeSort_eq_of_perm ?_ ?_ ?_ (OrdMap.agrees_iff_perm.1 h)
    · simp only [decide_eq_true_eq]
      exact fun _ _ _ => Int.le_trans
    · simp only [Bool.or_eq_true, decide_eq_true_eq]
      exact fun a b => Int.le_total _ _
    · simp only [decide_eq_true_eq]
      intro a ha b hb hab hba
      have hkey : a.1 = b.1 := Int.le_antisymm hab hba
      have hget := OrdMap.mem_entries_iff.1 ha
      rw [hkey, OrdMap.mem_entries_iff.1 hb] at hget
      exact Prod.ext hkey (Option.some.inj hget).symm

/-- A table with ids as keys shows its map, if it shows the values. -/
theorem agrees_of_table_eq {α : Type} {m m' : OrdMap Int α} {f : α → Value}
    (hf : ∀ {p q v w}, m'.get? p = some v → m.get? q = some w → f v = f w → v = w)
    (h : Value.table ((byId m').map fun e => (toString e.1, f e.2)) =
      .table ((byId m).map fun e => (toString e.1, f e.2))) : m.Agrees m' := by
  refine byId_eq_iff.1 (eq_of_map_eq_map (fun a ha b hb hab => ?_) (Value.table.inj h))
  obtain ⟨hkey, hvalue⟩ := Prod.mk.inj hab
  have ha' := OrdMap.mem_entries_iff.1 (List.mem_mergeSort.1 ha)
  have hb' := OrdMap.mem_entries_iff.1 (List.mem_mergeSort.1 hb)
  exact Prod.ext (Int.repr_injective (Text.ofString_injective hkey)) (hf ha' hb' hvalue)

variable {s s' : Assembly} {old old' : List Event}

theorem Orderly.voter_eq (h : s.Orderly) {p : Int} {m : OrdMap Account Ballot}
    (hm : s.ballots.get? p = some m) {v : Account} {b : Ballot} (hb : m.get? v = some b) :
    b.voter = v := by
  have hlive : s.ballot? p v = some b := by
    rw [ballot?, hm]
    exact hb
  exact (h.ballots hlive).voter_eq

theorem like_of_toValue_eq (h : s.Orderly) (h' : s'.Orderly) (hl : s'.limits = s.limits)
    (he : s'.toValue = s.toValue) :
    Like s.journal s'.journal s s' ∧ s'.journal.length = s.journal.length := by
  simp only [toValue, proposalsValue, ballotsValue, Value.table.injEq, List.cons.injEq,
    Prod.mk.injEq, Value.int.injEq, true_and, and_true] at he
  obtain ⟨hnow, hregistry, ⟨hnext, hproposals⟩, hballots, hcount⟩ := he
  have hclock : s'.clock = s.clock := by
    cases hs : s.clock
    cases hs' : s'.clock
    simp only [now, hs, hs'] at hnow
    cases hnow
    rfl
  refine ⟨⟨hl, hclock, Registry.like_of_toValue_eq hregistry, ?_, hnext, ?_, .refl ..⟩,
    Int.ofNat_inj.1 hcount⟩
  · refine agrees_of_table_eq (f := Proposal.toValue) (fun _ _ hxy => ?_) (congrArg _ hproposals)
    exact Proposal.toValue_injective hxy
  · refine agrees_of_table_eq (f := fun m => .list (m.values.map Ballot.toValue))
      (fun hm hm' hlist => ?_) (congrArg _ hballots)
    have hvalues := List.map_injective_iff.2 Ballot.toValue_injective (Value.list.inj hlist)
    exact OrdMap.eq_of_values_eq Ballot.voter (h.voter_eq hm') (h'.voter_eq hm) hvalues

theorem Like.toValue_eq (h : Like old old' s s') (hg : s.Given) (ho : old'.length = old.length) :
    s'.toValue = s.toValue := by
  unfold toValue proposalsValue ballotsValue
  rw [h.now_eq, h.registry.toValue_eq hg.voters, h.nextId_eq, byId_eq_iff.2 h.proposals,
    byId_eq_iff.2 h.ballots, h.journal.length_eq ho]

theorem Like.ids_eq (h : Like old old' s s') : s'.ids = s.ids := by
  refine mergeSort_eq_of_perm ?_ ?_ ?_ h.proposals.keys_perm
  · simp only [decide_eq_true_eq]
    exact fun _ _ _ => Int.le_trans
  · simp only [Bool.or_eq_true, decide_eq_true_eq]
    exact Int.le_total
  · simp only [decide_eq_true_eq]
    exact fun _ _ _ _ => Int.le_antisymm

theorem Like.ballotsOn_eq (h : Like old old' s s') (p : Int) : s'.ballotsOn p = s.ballotsOn p := by
  unfold ballotsOn
  rw [h.ballots p]

theorem Like.describe_eq (h : Like old old' s s') : s'.describe = s.describe := by
  unfold describe
  rw [h.now_eq, h.registry.size_eq, h.proposals.size_eq]

theorem Like.describeProposals_eq (h : Like old old' s s') :
    s'.describeProposals = s.describeProposals := by
  unfold describeProposals
  rw [h.nextId_eq, h.proposals.size_eq]

end Assembly

end QuadraticVoting
