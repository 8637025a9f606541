import QuadraticVoting.Proofs.Strokes

/-!
# Creations condition by condition

What a creation asks for, from first to last (`Assembly.createConditions`), and what it stores. The
conditions on the payload, the account list and the window are read off the three checks; how many
accounts of a list differ is counted as the size of a set (`AccountList.size_ofList`), and the list
that is kept has each of them once, in the order in which they first came up
(`AccountList.pairwise_idxOf_ofList`).

`Chamber.reachable_create_exact` is the resulting specification of a creation, for any fund lock.
-/

namespace QuadraticVoting

/-! ### Account lists -/

/-- The accounts that a caller lists. -/
def ListArg.given : ListArg → List Account
  | .none | .text _ => []
  | .accounts l => l

def ListArg.isText : ListArg → Bool
  | .text _ => true
  | .none | .accounts _ => false

namespace AccountList

theorem size_ofList (l : List Account) : (ofList l).size = l.toFinset.card := by
  have hset : (firstOccurrences l).toFinset = l.toFinset := by
    ext a
    rw [List.mem_toFinset, List.mem_toFinset, mem_firstOccurrences]
  rw [← hset]
  exact (List.toFinset_card_of_nodup (nodup_firstOccurrences l)).symm

theorem pairwise_idxOf_ofList (l : List Account) :
    (ofList l).members.Pairwise fun a b => l.idxOf a < l.idxOf b := by
  show (firstOccurrences l).Pairwise _
  induction l with
  | nil => exact .nil
  | cons a l ih =>
    have hlater : ∀ b ≠ a, (a :: l).idxOf b = l.idxOf b + 1 := fun b hb =>
      List.idxOf_cons_ne l (Ne.symm hb)
    rw [firstOccurrences, List.pairwise_cons]
    refine ⟨fun b hb => ?_, ?_⟩
    · have hne : b ≠ a := by simpa using (List.mem_filter.1 hb).2
      rw [List.idxOf_cons_self, hlater b hne]
      exact Nat.succ_pos _
    · refine (ih.sublist List.filter_sublist).imp_of_mem fun {b c} hb hc hlt => ?_
      rw [hlater b (by simpa using (List.mem_filter.1 hb).2),
        hlater c (by simpa using (List.mem_filter.1 hc).2)]
      exact Nat.succ_lt_succ hlt

/-- What an account list asks for. -/
def conditions (limit : Int) (arg : ListArg) : List Condition := [
  ⟨!arg.isText, .listIsText⟩,
  ⟨arg.given.toFinset.card ≤ limit, .listTooLarge arg.given.toFinset.card limit⟩]

theorem asks_check (limit : Int) (l : List Account) : Asks (bounded.check limit (ofList l))
    [⟨l.toFinset.card ≤ limit, .listTooLarge l.toFinset.card limit⟩] := by
  unfold bounded.check
  rw [size_ofList]
  exact .barred (by rw [decide_eq_true_eq, Int.not_lt]) (.ok _)

theorem asks_bounded (limit : Int) (arg : ListArg) :
    Asks (bounded limit arg) (conditions limit arg) := by
  cases arg with
  | none => exact ⟨(asks_check limit []).passes, (asks_check limit []).stops⟩
  | text t => exact .failed rfl
  | accounts l => exact ⟨(asks_check limit l).passes, (asks_check limit l).stops⟩

theorem bounded_eq_ok {limit : Int} {arg : ListArg} {l : AccountList}
    (h : bounded limit arg = .ok l) : l = ofList arg.given := by
  have hcheck : ∀ m : AccountList, bounded.check limit m = .ok l → l = m := by
    intro m hm
    unfold bounded.check at hm
    split at hm
    · cases hm
    · cases hm
      rfl
  cases arg with
  | none => exact hcheck _ h
  | text t => cases h
  | accounts l => exact hcheck _ h

end AccountList

/-! ### The other parts of a draft -/

/-- What a payload asks for. A text that has no bytes has no size. -/
def Payload.conditions (p : Payload) (limit : Int) : List Condition :=
  match p.toBytes with
  | .error f => [⟨false, f⟩]
  | .ok l => [⟨l.length ≤ limit, .payloadTooLarge l.length limit⟩]

theorem Payload.asks_bounded (p : Payload) (limit : Int) :
    Asks (p.bounded limit) (p.conditions limit) := by
  unfold bounded conditions
  cases p.toBytes with
  | error f => exact .failed rfl
  | ok l => exact .barred (by rw [decide_eq_true_eq, Int.not_lt]) (.ok l)

theorem KindArg.asks_require (k : KindArg) :
    Asks k.require [⟨k.kind?.isSome, .notAKind k.toValue⟩] := by
  unfold require
  cases k.kind? with
  | none => exact .failed rfl
  | some kind => exact .passed kind rfl

namespace Assembly

/-- What the window of a proposal asks for. -/
def windowConditions (limits : Limits) (start stop now : Int) : List Condition := [
  ⟨now ≤ start, .startInPast start now⟩,
  ⟨start < stop, .endBeforeStart stop start⟩,
  ⟨stop - start ≤ limits.maximum, .durationTooLong (stop - start) limits.maximum⟩,
  ⟨limits.minimum ≤ stop - start, .durationTooShort (stop - start) limits.minimum⟩,
  ⟨start - now ≤ limits.delay, .startTooFar (start - now) limits.delay⟩]

theorem asks_checkWindow (limits : Limits) (start stop now : Int) :
    Asks (checkWindow limits start stop now) (windowConditions limits start stop now) := by
  unfold checkWindow windowConditions
  exact .barred (by rw [decide_eq_true_eq, Int.not_lt]) <|
    .barred (by rw [decide_eq_true_eq, Int.not_le]) <|
    .barred (by rw [decide_eq_true_eq, Int.not_lt]) <|
    .barred (by rw [decide_eq_true_eq, Int.not_lt]) <|
    .barred (by rw [decide_eq_true_eq, Int.not_lt]) (.ok ())

/-- What a creation asks for, from first to last. -/
def createConditions (s : Assembly) (o : Origin) (d : Draft) : List Condition :=
  ⟨!o.isRoot && o.account.isGiven, .unsigned⟩ ::
    ⟨s.registry.contains o.account, .notRegistered o.account⟩ ::
      (d.payload.conditions s.limits.payload ++
        (AccountList.conditions s.limits.accounts d.accounts ++
          (⟨d.kind.kind?.isSome, .notAKind d.kind.toValue⟩ ::
            windowConditions s.limits d.start d.stop s.now)))

theorem asks_create (s : Assembly) (o : Origin) (d : Draft) :
    Asks (o.signer >>= fun creator => s.draftProposal creator d s.now)
      (s.createConditions o d) := by
  refine .cons (Origin.asks_signer o) fun creator ho => ?_
  obtain rfl := (Origin.signer_eq_ok_iff.1 ho).2.1
  unfold draftProposal
  refine .cons (Registry.asks_require ..) fun _ _ => .bind (Payload.asks_bounded ..) fun data _ =>
    .bind (AccountList.asks_bounded ..) fun accounts _ =>
    .cons (KindArg.asks_require _) fun kind _ => ?_
  have hwindow := (asks_checkWindow s.limits d.start d.stop s.now).bind fun _ _ =>
    .ok (Proposal.mk s.nextId o.account data kind accounts d.start d.stop .pending .zero)
  rwa [List.append_nil] at hwindow

/-- What is stored for a draft that meets its conditions. -/
def drafted (s : Assembly) (creator : Account) (d : Draft) (data : List UInt8) (kind : Kind) :
    Proposal where
  id := s.nextId
  creator := creator
  data := data
  kind := kind
  accounts := .ofList d.accounts.given
  start := d.start
  stop := d.stop

theorem draftProposal_eq_ok {s : Assembly} {creator : Account} {d : Draft} {now : Int}
    {x : Proposal} (hx : s.draftProposal creator d now = .ok x) : ∃ data kind,
      d.payload.toBytes = .ok data ∧ d.kind.kind? = some kind ∧
      x = s.drafted creator d data kind := by
  obtain ⟨-, data, accounts, kind, hdata, haccounts, hkind, -, rfl⟩ := draftProposal_eq_ok_iff.1 hx
  obtain rfl := AccountList.bounded_eq_ok haccounts
  exact ⟨data, kind, (Payload.bounded_eq_ok_iff.1 hdata).1, KindArg.require_eq_ok_iff.1 hkind, rfl⟩

end Assembly

namespace Chamber

variable {σ : Type} [FundLock σ] {c : Chamber σ}

/-- Whether the creation of a draft can be told. -/
def tellsCreation (c : Chamber σ) (d : Draft) : Bool :=
  Value.isWritable c.assembly.nextId && Value.isWritable d.start && Value.isWritable d.stop

omit [FundLock σ] in
theorem tellsCreation_iff (c : Chamber σ) (d : Draft) : c.tellsCreation d = true ↔
    ∀ k ∈ [c.assembly.nextId, d.start, d.stop], Value.isWritable k = true := by
  simp [tellsCreation, and_assoc]

/-- A creation fails with its first failing condition, or stores what was drafted. -/
theorem perform_create [Host] (h : c.assembly.Orderly) (o : Origin) (d : Draft) :
    let r := c.perform (.createProposal o d)
    let conditions := c.assembly.createConditions o d
    (∀ f, firstFault conditions = some f → r.result = .error f.told ∧ r.state = c) ∧
      (firstFault conditions = none → ∃ data kind, d.payload.toBytes = .ok data ∧
        d.kind.kind? = some kind ∧
        let x := c.assembly.drafted o.account d data kind
        r.result = (if c.tellsCreation d then .ok (.id x.id) else .error (.excess .integer)) ∧
        r.state = append (c.withAssembly { c.assembly with
          proposals := c.assembly.proposals.insert x.id x
          nextId := c.assembly.nextId + 1 })
            (if c.tellsCreation d then [creationEvent x] else [])) := by
  intro r conditions
  have hasks := c.assembly.asks_create o d
  refine ⟨fun f hf => perform_of_checks_error (hasks.stops_discard hf), fun hnone => ?_⟩
  obtain ⟨x, hx⟩ := hasks.passes hnone
  obtain ⟨creator, ho, hx⟩ := bind_eq_ok_iff.1 hx
  obtain rfl := (Origin.signer_eq_ok_iff.1 ho).2.1
  have hchange := Change.created ho hx
  have hwritable := hchange.writable_iff h
  obtain ⟨data, kind, hdata, hkind, rfl⟩ := Assembly.draftProposal_eq_ok hx
  refine ⟨data, kind, hdata, hkind, ?_⟩
  have htold := hwritable.trans (c.tellsCreation_iff d).symm
  exact hchange.perform_ite nofun htold

/-- A creation succeeds if and only if all of its conditions hold and it can be told. If one does
not hold, the first of them is told, and nothing changes. If all do, a pending proposal is stored
under the next id, which was free, with the bytes of the payload and each listed account once, in
the order in which they first came up; nothing else changes but for the next id and the event that
repeats what is stored. -/
theorem reachable_create_exact [Host] (limits : Limits) (clock : Clock)
    (h : c.Reachable limits clock) (o : Origin) (d : Draft) :
    let r := c.perform (.createProposal o d)
    let conditions := c.assembly.createConditions o d
    let n := c.assembly.nextId
    let given := d.accounts.given
    c.assembly.limits = limits ∧
      ((∃ a, r.result = .ok a) ↔
        (∀ k ∈ conditions, k.holds = true) ∧ c.tellsCreation d = true) ∧
      (∀ f, firstFault conditions = some f → r.result = .error f.told ∧ r.state = c) ∧
      ((∀ k ∈ conditions, k.holds = true) →
        ∃ data kind accounts, d.payload.toBytes = .ok data ∧ d.kind.kind? = some kind ∧
          (∀ a, a ∈ accounts.members ↔ a ∈ given) ∧
          (accounts.members.Pairwise fun a b => given.idxOf a < given.idxOf b) ∧
          let x : Proposal :=
            ⟨n, o.account, data, kind, accounts, d.start, d.stop, .pending, ⟨0, 0⟩⟩
          r.result = (if c.tellsCreation d then .ok (.id n) else .error (.excess .integer)) ∧
          c.assembly.proposal? n = none ∧
          (∀ q, r.state.assembly.proposal? q =
            if q = n then some x else c.assembly.proposal? q) ∧
          r.state.assembly = { c.assembly with
            proposals := r.state.assembly.proposals
            nextId := n + 1
            journal := c.assembly.journal ++ if c.tellsCreation d then
              [.proposalCreated n o.account data kind accounts d.start d.stop] else [] } ∧
          r.state.funds = c.funds) := by
  intro r conditions n given
  obtain ⟨hstops, hmakes⟩ := c.perform_create h.orderly o d
  refine ⟨h.limits_eq, ?_, hstops, fun hall => ?_⟩
  · rw [← firstFault_eq_none_iff]
    refine exists_ok_iff (fun f hf => (hstops f hf).1) fun hnone => ?_
    obtain ⟨data, kind, -, -, hr, -⟩ := hmakes hnone
    exact ⟨_, hr⟩
  · obtain ⟨data, kind, hdata, hkind, hr, hs⟩ := hmakes (firstFault_eq_none_iff.2 hall)
    refine ⟨data, kind, .ofList given, hdata, hkind, fun a => AccountList.mem_firstOccurrences,
      AccountList.pairwise_idxOf_ofList given, hr, h.orderly.proposal?_of_le (Int.le_refl n), ?_⟩
    rw [hs]
    let x := c.assembly.drafted o.account d data kind
    exact ⟨c.assembly.proposal?_insert x (n + 1), rfl, rfl⟩

/-- The latest start that the delay limit allows. An account that is listed twice is kept once. -/
theorem reachable_create_exact_latest :
    let start := Chamber.empty .standard .zero (⟨10, false, []⟩ : HostFunds)
    let c := start.run [.call (.registerVoter .root Round.ann)]
    let d : Draft := ⟨.text (.ofChars ['é']), .kind .privateVote,
      .accounts [Round.bob, Round.ann, Round.bob], 100, 200⟩
    let r := c.perform (.createProposal ⟨Round.ann, false⟩ d)
    c.Reachable .standard .zero ∧ (∃ a, r.result = .ok a) ∧
      r.state.assembly.proposal? 0 = some ⟨0, Round.ann, [0xc3, 0xa9], .privateVote,
        .ofList [Round.bob, Round.ann], 100, 200, .pending, ⟨0, 0⟩⟩ := by
  intro start c d r
  have hreach : c.Reachable .standard .zero := (Reachable.start _).run _
  have h := reachable_create_exact .standard .zero hreach ⟨Round.ann, false⟩ d
  exact ⟨hreach, h.2.1.2 ⟨by decide, by decide⟩, by decide⟩

/-- A start before a block that has more digits than can be written is refused, but the caller is
not told so. -/
theorem past_start_is_not_told :
    let start := Chamber.empty .standard .zero (⟨10, false, []⟩ : HostFunds)
    let c := start.run [.call (.registerVoter .root Round.ann), .setBlock Value.writtenBound]
    let d : Draft := ⟨.bytes [], .kind .publicVote, .none, 5, 105⟩
    firstFault (c.assembly.createConditions ⟨Round.ann, false⟩ d) =
        some (.startInPast 5 Value.writtenBound) ∧
      (c.perform (.createProposal ⟨Round.ann, false⟩ d)).result = .error (.excess .integer) := by
  decide +kernel

end Chamber

end QuadraticVoting
