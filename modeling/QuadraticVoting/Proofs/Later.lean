import QuadraticVoting.Proofs.Atomicity

/-!
# What comes later

`c.Later c'`: a host can come from `c` to `c'` by calls and by moves of the clock, also backwards,
whatever it does to the funds in between. What no call breaks and has nothing to do with the clock
holds from then on (`Later.keeps`), such as that a proposal is closed (`Later.closed?_stays`).

A call touches one proposal and the ballots on it (`Change.frame`, `Halfway.frame`). When it cannot
tell its change, the id of that proposal cannot be written (`Change.eq_of_untold`,
`Halfway.ne_of_isWritable`), or the proposal is a new one. Ids count up from 0, so this does not
happen to a stored proposal before `Value.writtenBound` of them have been made
(`Reachable.isWritable`).
-/

namespace QuadraticVoting

namespace Call

/-- The proposal that a call names. -/
def proposal? : Call → Option Int
  | registerVoter .. | unregisterVoter .. | createProposal .. => none
  | cancelProposal _ p | setAccountList _ p _ | vote _ p .. | closeProposal _ p
  | claim _ p => some p

end Call

theorem Proposal.isPendingAt_iff {x : Proposal} {now : Int} :
    x.isPendingAt now = true ↔ x.isClosed = false ∧ now < x.start := by
  unfold isPendingAt stageAt
  cases x.isClosed with
  | true => simp
  | false =>
    simp only [Bool.false_eq_true, if_false, true_and, decide_eq_true_eq]
    split
    · next h => simp [h]
    · next h => split <;> simp [h]

namespace Assembly

/-- The proposal under an id, if it is closed. -/
def closed? (s : Assembly) (p : Int) : Option Proposal :=
  (s.proposal? p).filter Proposal.isClosed

theorem closed?_eq_some_iff {s : Assembly} {p : Int} {x : Proposal} :
    s.closed? p = some x ↔ s.proposal? p = some x ∧ x.isClosed = true :=
  Option.filter_eq_some_iff

theorem closed?_eq_none_iff {s : Assembly} {p : Int} :
    s.closed? p = none ↔ ∀ x, s.proposal? p = some x → x.isClosed = false := by
  unfold closed?
  rw [Option.filter_eq_none_iff]
  simp

theorem closed?_of_open {s : Assembly} {p : Int} {x : Proposal} (hx : s.proposal? p = some x)
    (ho : x.isClosed = false) : s.closed? p = none := by
  unfold closed?
  rw [hx, Option.filter_some, ho]
  rfl

theorem closed?_congr {s s' : Assembly} {p : Int} (h : s'.proposal? p = s.proposal? p) :
    s'.closed? p = s.closed? p := congrArg (Option.filter Proposal.isClosed) h

theorem proposal?_insert (s : Assembly) (x : Proposal) (n q : Int) :
    proposal? { s with proposals := s.proposals.insert x.id x, nextId := n } q =
      if q = x.id then some x else s.proposal? q := OrdMap.get?_insert ..

theorem Orderly.proposal?_of_le {s : Assembly} (h : s.Orderly) {p : Int} (hp : s.nextId ≤ p) :
    s.proposal? p = none := by
  cases hx : s.proposal? p with
  | none => rfl
  | some x =>
    have := (h.proposals hx).issued
    omega

/-- Ids are handed out from 0 on. -/
structure Numbered (s : Assembly) : Prop where
  nextId_nonneg : 0 ≤ s.nextId
  proposal_nonneg : ∀ {p : Int} {x : Proposal}, s.proposal? p = some x → 0 ≤ p

theorem Numbered.empty (limits : Limits) (clock : Clock) :
    (Assembly.empty limits clock).Numbered := ⟨Int.le_refl 0, fun hx => nomatch hx⟩

/-- No id is too large to be written before `Value.writtenBound` proposals have been made. -/
theorem Numbered.isWritable {s : Assembly} (hn : s.Numbered) (h : s.Orderly)
    (hb : s.nextId ≤ Value.writtenBound) {p : Int} {x : Proposal} (hx : s.proposal? p = some x) :
    Value.isWritable p = true := by
  have hissued := (h.proposals hx).issued
  have hnonneg := hn.proposal_nonneg hx
  simp only [Value.isWritable, decide_eq_true_eq]
  omega

/-- Assemblies that differ in their records alone. -/
structure Alike (s s' : Assembly) : Prop where
  limits_eq : s'.limits = s.limits
  clock_eq : s'.clock = s.clock
  journal_eq : s'.journal = s.journal

/-! ### What a vote leaves alone -/

section Writing

variable (s : Assembly) (plan : VotePlan)

theorem dropBallot_eq (p : Int) (v : Account) :
    s.dropBallot p v = { s with ballots := (s.dropBallot p v).ballots } := by
  unfold dropBallot
  split <;> rfl

theorem write_eq : s.write plan =
    { s with proposals := (s.write plan).proposals, ballots := (s.write plan).ballots } := by
  unfold write
  split
  · rfl
  · rw [dropBallot_eq]
    rfl

theorem carry_eq : s.carry plan =
    { s with proposals := (s.carry plan).proposals, ballots := (s.carry plan).ballots } := by
  unfold carry
  split
  · unfold settle
    rw [write_eq]
    rfl
  · exact write_eq ..

theorem ballot?_carry (p : Int) (v : Account) :
    (s.carry plan).ballot? p v = (s.write plan).ballot? p v := by
  unfold ballot?
  rw [ballots_carry]

theorem proposal?_carry_of_ne {q : Int} (hq : q ≠ plan.ballot.proposal) :
    (s.carry plan).proposal? q = s.proposal? q := by
  have hw := (s.proposal?_write plan q).trans (if_neg hq)
  unfold carry
  split
  · exact ((s.write plan).proposal?_putProposal _ q _).trans ((if_neg hq).trans hw)
  · exact hw

theorem proposal?_carry_self : (s.carry plan).proposal? plan.ballot.proposal =
    some (if plan.closes then { plan.counted with status := .closed } else plan.counted) := by
  unfold carry
  split
  · exact ((s.write plan).proposal?_putProposal ..).trans (if_pos rfl)
  · exact (s.proposal?_write plan _).trans (if_pos rfl)

end Writing

end Assembly

namespace Chamber

variable {σ : Type} [FundLock σ] {c c' : Chamber σ} {call : Call} {events : List Event}
  {notices : List Log.Notice} {a : Answer}

/-! ### One call -/

omit [FundLock σ] in
theorem numbers_of_proposal? {p : Int} (hp : call.proposal? = some p) : c.numbers call = [p] := by
  cases call with
  | registerVoter | unregisterVoter | createProposal => cases hp
  | cancelProposal | setAccountList | vote | closeProposal | claim =>
    exact congrArg (fun k => [k]) (Option.some.inj hp)

theorem Change.alike (hc : c.Change call c' events notices a) :
    c.assembly.Alike c'.assembly := by
  cases hc with
  | registered | unregistered | created | cancelled | listed | closed => exact ⟨rfl, rfl, rfl⟩
  | voted =>
    rw [Assembly.carry_eq]
    exact ⟨rfl, rfl, rfl⟩
  | claimed =>
    rw [Assembly.dropBallot_eq]
    exact ⟨rfl, rfl, rfl⟩

theorem Halfway.alike (hh : c.Halfway call c') : c.assembly.Alike c'.assembly := by
  cases hh with
  | vote =>
    rw [Assembly.write_eq]
    exact ⟨rfl, rfl, rfl⟩

theorem Change.journal (hc : c.Change call c' events notices a) :
    c'.assembly.journal = c.assembly.journal := hc.alike.journal_eq

theorem Halfway.journal (hh : c.Halfway call c') : c'.assembly.journal = c.assembly.journal :=
  hh.alike.journal_eq

theorem Change.exists_proposal (hc : c.Change call c' events notices a) {p : Int}
    (hp : call.proposal? = some p) : ∃ x, c.assembly.proposal? p = some x := by
  cases hc with
  | registered | unregistered | created => cases hp
  | cancelled hx => exact Option.some.inj hp ▸ ⟨_, (Assembly.checkCancel_eq_ok_iff.1 hx).1⟩
  | listed hx hl => exact Option.some.inj hp ▸ ⟨_, (checkEditor_eq_ok_iff.1 hx).1⟩
  | closed hx hc => exact Option.some.inj hp ▸ ⟨_, (Assembly.checkClose_eq_ok_iff.1 hx).1⟩
  | voted ho hv hf => exact Option.some.inj hp ▸ ⟨_, (Assembly.planVote_eq_ok_iff.1 hv).proposal_eq⟩
  | claimed ho hb hf =>
    obtain ⟨-, ⟨x, hx, -⟩, -⟩ := checkClaim_eq_ok_iff.1 hb
    exact Option.some.inj hp ▸ ⟨x, hx⟩

/-- A call leaves the proposals that it does not name as they were, a new one apart, and all
ballots on them. -/
theorem Change.frame (hc : c.Change call c' events notices a) (h : c.assembly.Orderly) {q : Int}
    (hq : call.proposal? ≠ some q) :
    (q ≠ c.assembly.nextId → c'.assembly.proposal? q = c.assembly.proposal? q) ∧
      c'.assembly.closed? q = c.assembly.closed? q ∧
      ∀ v, c'.assembly.ballot? q v = c.assembly.ballot? q v := by
  have hkept : ∀ {s : Assembly}, s.proposal? q = c.assembly.proposal? q →
      (∀ v, s.ballot? q v = c.assembly.ballot? q v) →
      (q ≠ c.assembly.nextId → s.proposal? q = c.assembly.proposal? q) ∧
        s.closed? q = c.assembly.closed? q ∧ ∀ v, s.ballot? q v = c.assembly.ballot? q v :=
    fun hp hb => ⟨fun _ => hp, Assembly.closed?_congr hp, hb⟩
  cases hc with
  | registered | unregistered => exact hkept rfl fun _ => rfl
  | created ho hx =>
    obtain ⟨-, data, accounts, kind, -, -, -, -, rfl⟩ := Assembly.draftProposal_eq_ok_iff.1 hx
    have hnew := fun n x => c.assembly.proposal?_insert x n q
    by_cases hn : q = c.assembly.nextId
    · have hnone : c.assembly.closed? q = none := by
        rw [Assembly.closed?, h.proposal?_of_le (Int.le_of_eq hn.symm)]
        rfl
      refine ⟨fun hne => absurd hn hne, ?_, fun _ => rfl⟩
      exact (Assembly.closed?_of_open ((hnew _ _).trans (if_pos hn)) rfl).trans hnone.symm
    · exact hkept ((hnew _ _).trans (if_neg hn)) fun _ => rfl
  | @cancelled o p x hx =>
    have hne : q ≠ p := fun e => hq (e ▸ rfl)
    exact hkept (OrdMap.get?_erase_of_ne _ hne) fun _ => rfl
  | @listed o p arg x l hx hl =>
    have hne : q ≠ p := fun e => hq (e ▸ rfl)
    exact hkept (OrdMap.get?_insert_of_ne _ _ hne) fun _ => rfl
  | @closed o p x hx hc =>
    have hne : q ≠ p := fun e => hq (e ▸ rfl)
    exact hkept (OrdMap.get?_insert_of_ne _ _ hne) fun _ => rfl
  | voted ho hp hf =>
    have hb := (Assembly.planVote_eq_ok_iff.1 hp).ballot_proposal
    have hne : q ≠ _ := fun e => hq (congrArg some (e.trans hb).symm)
    refine hkept (Assembly.proposal?_carry_of_ne _ _ hne) fun v => ?_
    rw [Assembly.ballot?_carry, Assembly.ballot?_write, if_neg fun h => hne h.1]
  | @claimed o p voter b ho hb hf =>
    have hne : q ≠ p := fun e => hq (e ▸ rfl)
    refine hkept (Assembly.proposal?_dropBallot ..) fun v => ?_
    rw [Assembly.ballot?_dropBallot, if_neg fun h => hne h.1]

theorem Change.isWritable (hc : c.Change call c' events notices a) (h : c.assembly.Orderly)
    (hn : ∀ n ∈ notices, n.Writable) {p : Int} (hp : call.proposal? = some p) :
    Value.isWritable p = true := by
  rw [hc.writable_iff h, numbers_of_proposal? hp] at hn
  exact hn p List.mem_cons_self

/-- A change that is not told leaves what is closed, and all ballots, as they were under every id
that can be written. -/
theorem Change.eq_of_untold (hc : c.Change call c' events notices a) (h : c.assembly.Orderly)
    (hn : ¬ ∀ n ∈ notices, n.Writable) {q : Int} (hq : Value.isWritable q = true) :
    c'.assembly.closed? q = c.assembly.closed? q ∧
      ∀ v, c'.assembly.ballot? q v = c.assembly.ballot? q v := by
  refine (hc.frame h fun hp => hn ?_).2
  rw [hc.writable_iff h, numbers_of_proposal? hp]
  exact List.forall_mem_singleton.2 hq

theorem Halfway.exists_proposal (hh : c.Halfway call c') {p : Int}
    (hp : call.proposal? = some p) : ∃ x, c.assembly.proposal? p = some x := by
  cases hh with
  | vote ho hv hf hn hcl =>
    exact Option.some.inj hp ▸ ⟨_, (Assembly.planVote_eq_ok_iff.1 hv).proposal_eq⟩

theorem Halfway.frame (hh : c.Halfway call c') {q : Int} (hq : call.proposal? ≠ some q) :
    c'.assembly.proposal? q = c.assembly.proposal? q ∧
      ∀ v, c'.assembly.ballot? q v = c.assembly.ballot? q v := by
  cases hh with
  | vote ho hp hf hn hcl =>
    have hb := (Assembly.planVote_eq_ok_iff.1 hp).ballot_proposal
    have hne : q ≠ _ := fun e => hq (congrArg some (e.trans hb).symm)
    exact ⟨(c.assembly.proposal?_write _ q).trans (if_neg hne),
      fun v => (c.assembly.ballot?_write _ q v).trans (if_neg fun e => hne e.1)⟩

theorem Halfway.ne_of_isWritable (hh : c.Halfway call c') (h : c.assembly.Orderly) {q : Int}
    (hq : Value.isWritable q = true) : call.proposal? ≠ some q := by
  intro he
  cases hh with
  | vote ho hp hf hn hcl =>
    cases he
    have hnotices := (Assembly.planVote_eq_ok_iff.1 hp).isWritable_notices h
    exact hn (hnotices.2 hq _ List.mem_cons_self)

theorem Halfway.closed?_eq (hh : c.Halfway call c') (q : Int) :
    c'.assembly.closed? q = c.assembly.closed? q := by
  by_cases hq : call.proposal? = some q
  · cases hh with
    | @vote o p aye weight voter plan ho hp hf hn hcl =>
      cases hq
      have hplan := Assembly.planVote_eq_ok_iff.1 hp
      have hw := (c.assembly.proposal?_write plan _).trans (if_pos hplan.ballot_proposal.symm)
      rw [Assembly.closed?_of_open hplan.proposal_eq hplan.is_open]
      exact Assembly.closed?_of_open hw hplan.is_open
  · exact Assembly.closed?_congr (hh.frame hq).1

section AnyHost

variable [Host]

/-- Every assembly after a call is one of four: the one before, that of a change that is told, of
one that is not, and of a vote left halfway. -/
theorem perform_told {P : Assembly → Prop} (call : Call) (hsame : P c.assembly)
    (htold : ∀ {c' events notices a}, c.Change call c' events notices a →
      (∀ n ∈ notices, n.Writable) → P (c'.assembly.append events))
    (huntold : ∀ {c' events notices a}, c.Change call c' events notices a →
      (¬ ∀ n ∈ notices, n.Writable) → P c'.assembly)
    (hhalfway : ∀ {c'}, c.Halfway call c' → P c'.assembly) :
    P (c.perform call).state.assembly := by
  cases c.perform_course call with
  | refused hx hr hs | quiet hq hr hs | muted hq hr hs => rw [hs]; exact hsame
  | unfunded hu hr hs => rw [hs]; exact hsame
  | done hc hn hr hs => rw [hs]; exact htold hc hn
  | untold hc hn hr hs => rw [hs]; exact huntold hc hn
  | halfway hh hr hs => rw [hs]; exact hhalfway hh

/-- For what does not depend on whether a change that is told can be. -/
theorem perform_assembly {P : Assembly → Prop} (call : Call) (hsame : P c.assembly)
    (htold : ∀ {c' events notices a}, c.Change call c' events notices a →
      P (c'.assembly.append events))
    (huntold : ∀ {c' events notices a}, c.Change call c' events notices a →
      (¬ ∀ n ∈ notices, n.Writable) → P c'.assembly)
    (hhalfway : ∀ {c'}, c.Halfway call c' → P c'.assembly) :
    P (c.perform call).state.assembly :=
  perform_told call hsame (fun hc _ => htold hc) huntold hhalfway

theorem perform_fixed (c : Chamber σ) (call : Call) :
    (c.perform call).state.assembly.limits = c.assembly.limits ∧
      (c.perform call).state.assembly.clock = c.assembly.clock := by
  refine perform_assembly (P := fun s => s.limits = c.assembly.limits ∧ s.clock = c.assembly.clock)
    call ⟨rfl, rfl⟩ ?_ ?_ ?_
  · exact fun hc => ⟨hc.alike.limits_eq, hc.alike.clock_eq⟩
  · exact fun hc _ => ⟨hc.alike.limits_eq, hc.alike.clock_eq⟩
  · exact fun hh => ⟨hh.alike.limits_eq, hh.alike.clock_eq⟩

theorem perform_clock (c : Chamber σ) (call : Call) :
    (c.perform call).state.assembly.clock = c.assembly.clock := (c.perform_fixed call).2

end AnyHost

theorem Change.nextId_le (hc : c.Change call c' events notices a) :
    c.assembly.nextId ≤ c'.assembly.nextId := by
  cases hc with
  | registered | unregistered | cancelled | listed | closed => exact Int.le_refl _
  | created => exact Int.le_of_lt (Int.lt_succ _)
  | voted =>
    refine Int.le_of_eq (Eq.symm ?_)
    exact (congrArg Assembly.nextId (Assembly.carry_eq ..)).trans rfl
  | claimed => exact Int.le_of_eq (Assembly.nextId_dropBallot ..).symm

/-- What can still change about a closed proposal is that a ballot on it is claimed. -/
theorem Change.eq_claim (hc : c.Change call c' events notices a) {p : Int} {x : Proposal}
    (hx : c.assembly.closed? p = some x) (hp : call.proposal? = some p) :
    ∃ o, call = .claim o p := by
  obtain ⟨hstored, hclosed⟩ := Assembly.closed?_eq_some_iff.1 hx
  -- What the call finds under the id is this proposal, which is not open.
  have hnot : ∀ y, c.assembly.proposal? p = some y → y.isClosed ≠ false := by
    intro y hy ho
    cases hstored.symm.trans hy
    rw [hclosed] at ho
    cases ho
  cases hc with
  | registered | unregistered | created => cases hp
  | cancelled hy =>
    cases hp
    obtain ⟨hy, -, hpending⟩ := Assembly.checkCancel_eq_ok_iff.1 hy
    exact absurd (Proposal.isPendingAt_iff.1 hpending).1 (hnot _ hy)
  | listed hy hl =>
    cases hp
    have hpending := (Assembly.checkAccountList_eq_ok_iff.1 hl).1
    exact absurd (Proposal.isPendingAt_iff.1 hpending).1 (hnot _ (checkEditor_eq_ok_iff.1 hy).1)
  | closed hy ho =>
    cases hp
    exact absurd ho (hnot _ (Assembly.checkClose_eq_ok_iff.1 hy).1)
  | voted ho hv hf =>
    cases hp
    have hplan := Assembly.planVote_eq_ok_iff.1 hv
    exact absurd hplan.is_open (hnot _ hplan.proposal_eq)
  | claimed ho hb hf =>
    cases hp
    exact ⟨_, rfl⟩

theorem Change.closed?_stays (hc : c.Change call c' events notices a) (h : c.assembly.Orderly)
    {p : Int} {x : Proposal} (hx : c.assembly.closed? p = some x) :
    c'.assembly.closed? p = some x := by
  by_cases hp : call.proposal? = some p
  · obtain ⟨o, rfl⟩ := hc.eq_claim hx hp
    cases hc with
    | claimed => exact (Assembly.closed?_congr (Assembly.proposal?_dropBallot ..)).trans hx
  · exact (hc.frame h hp).2.1.trans hx

theorem Halfway.ne_of_closed (hh : c.Halfway call c') {p : Int} {x : Proposal}
    (hx : c.assembly.closed? p = some x) : call.proposal? ≠ some p := by
  intro hp
  obtain ⟨_, _, _, _, hc, -⟩ := hh.exists_change
  obtain ⟨o, rfl⟩ := hc.eq_claim hx hp
  cases hh

section AnyHost

variable [Host]

theorem perform_of_checks_error {f : Fault} (hf : c.checks call = .error f) :
    (c.perform call).result = .error f.told ∧ (c.perform call).state = c := by
  cases c.perform_course call with
  | refused hx hr hs =>
    cases hf.symm.trans hx
    exact ⟨hr, hs⟩
  | quiet hq hr hs | muted hq hr hs =>
    cases hf.symm.trans hq.checks_eq_ok
  | unfunded hu hr hs => cases hf.symm.trans hu.checks_eq_ok
  | done hc hn hr hs | untold hc hn hr hs => cases hf.symm.trans hc.checks_eq_ok
  | halfway hh hr hs =>
    obtain ⟨_, _, _, _, hc, -⟩ := hh.exists_change
    cases hf.symm.trans hc.checks_eq_ok

/-- A call with a change to make makes it, unless it stops halfway, and fails if it cannot be
told. -/
theorem Change.perform_cases (hc : c.Change call c' events notices a) :
    ((∀ n ∈ notices, n.Writable) ∧
        (c.perform call).result = .ok a ∧ (c.perform call).state = c'.append events) ∨
      ((¬ ∀ n ∈ notices, n.Writable) ∧ (c.perform call).result = .error (.excess .integer) ∧
        ((c.perform call).state = c' ∨ c.Halfway call (c.perform call).state)) := by
  cases c.perform_course call with
  | refused hx hr hs => cases hx.symm.trans hc.checks_eq_ok
  | quiet hq hr hs | muted hq hr hs => exact absurd hq hc.not_quiet
  | unfunded hu hr hs => exact absurd hu hc.not_unfunded
  | done hc' hn hr hs =>
    obtain ⟨rfl, rfl, rfl, rfl⟩ := hc.unique hc'
    exact .inl ⟨hn, hr, hs⟩
  | untold hc' hn hr hs =>
    obtain ⟨rfl, -, rfl, -⟩ := hc.unique hc'
    exact .inr ⟨hn, hr, .inl hs⟩
  | halfway hd hr hs =>
    obtain ⟨_, _, _, _, hc', hn, -⟩ := hd.exists_change
    exact .inr ⟨(hc.unique hc').2.2.1 ▸ hn, hr, .inr (hs ▸ hd)⟩

theorem Change.perform_of_writable (hc : c.Change call c' events notices a)
    (hn : ∀ n ∈ notices, n.Writable) :
    (c.perform call).result = .ok a ∧ (c.perform call).state = c'.append events := by
  rcases hc.perform_cases with ⟨-, hdone⟩ | ⟨hn', -⟩
  · exact hdone
  · exact absurd hn hn'

/-- A change that cannot be left halfway is made as a whole, and answered if it can be told. -/
theorem Change.perform_eq (hc : c.Change call c' events notices a)
    (hh : ∀ d, ¬ c.Halfway call d) :
    (∃ told, (c.perform call).state = c'.append told) ∧
      ((∀ n ∈ notices, n.Writable) → (c.perform call).result = .ok a) := by
  rcases hc.perform_cases with ⟨hn, hr, hs⟩ | ⟨hn, hr, hs⟩
  · exact ⟨⟨_, hs⟩, fun _ => hr⟩
  · have hmade := (hs.resolve_right (hh _)).trans (append_nil c').symm
    exact ⟨⟨[], hmade⟩, fun hn' => absurd hn' hn⟩

theorem Change.perform_ite (hc : c.Change call c' events notices a)
    (hh : ∀ d, ¬ c.Halfway call d) {told : Bool}
    (ht : (∀ n ∈ notices, n.Writable) ↔ told = true) :
    (c.perform call).result = (if told then .ok a else .error (.excess .integer)) ∧
      (c.perform call).state = c'.append (if told then events else []) := by
  rcases hc.perform_cases with ⟨hn, hr, hs⟩ | ⟨hn, hr, hs⟩
  · obtain rfl := ht.1 hn
    exact ⟨hr, hs⟩
  · obtain rfl := eq_false_of_ne_true (ht.not.1 hn)
    exact ⟨hr, (hs.resolve_right (hh _)).trans (append_nil c').symm⟩

theorem perform_claim_refused {o : Origin} {p : Int}
    (h : ∀ b, checkClaim c.assembly o.account p ≠ .ok b) :
    ∃ f, (c.perform (.claim o p)).result = .error f ∧ (c.perform (.claim o p)).state = c := by
  cases hx : c.checks (.claim o p) with
  | error f => exact ⟨f.told, perform_of_checks_error hx⟩
  | ok u =>
    obtain ⟨voter, ho, hclaim⟩ := bind_eq_ok_iff.1 hx
    have hv : o.account = voter := (Origin.signer_eq_ok_iff.1 ho).2.1
    cases hb : checkClaim c.assembly voter p with
    | error f => cases (discard_error hb).symm.trans hclaim
    | ok b => exact absurd (hv ▸ hb) (h b)

/-! ### Any number of steps -/

/-- A host can come from `c` to the other chamber. Between two steps it may do anything to the
funds. -/
inductive Later (c : Chamber σ) : Chamber σ → Prop
  | refl : Later c c
  | step {d : Chamber σ} (h : Later c d) (s : Step) : Later c (d.step s).state
  | host {d : Chamber σ} (h : Later c d) (funds : σ) : Later c (d.withFunds funds)

theorem Later.trans {c'' : Chamber σ} (h : c.Later c') (h' : c'.Later c'') : c.Later c'' := by
  induction h' with
  | refl => exact h
  | step _ s ih => exact ih.step s
  | host _ funds ih => exact ih.host funds

theorem Later.orderly (h : c.Later c') (ho : c.assembly.Orderly) : c'.assembly.Orderly := by
  induction h with
  | refl => exact ho
  | step _ s ih => exact step_orderly ih s
  | host _ funds ih => exact ih

/-- What no call breaks, and what has nothing to do with the clock, holds from then on. -/
theorem Later.keeps {P : Assembly → Prop} (h : c.Later c') (ho : c.assembly.Orderly)
    (hcall : ∀ d : Chamber σ, d.assembly.Orderly → P d.assembly → ∀ call,
      P (d.perform call).state.assembly)
    (hclock : ∀ s clock, P s → P { s with clock := clock }) (hP : P c.assembly) :
    P c'.assembly := by
  induction h with
  | refl => exact hP
  | @step d h s ih =>
    cases s with
    | call x => exact hcall d (h.orderly ho) ih x
    | setBlock n => exact hclock _ _ ih
    | advance n => exact hclock _ _ ih
  | host _ funds ih => exact ih

theorem Later.closed?_stays (h : c.Later c') (ho : c.assembly.Orderly) {p : Int} {x : Proposal}
    (hx : c.assembly.closed? p = some x) : c'.assembly.closed? p = some x := by
  refine h.keeps (P := fun s => s.closed? p = some x) ho (fun d hd hx call => ?_)
    (fun _ _ hx => hx) hx
  refine perform_assembly (P := fun s => s.closed? p = some x) call hx ?_ ?_ ?_
  · intro _ _ _ _ hc
    exact hc.closed?_stays hd hx
  · intro _ _ _ _ hc _
    exact hc.closed?_stays hd hx
  · intro _ hh
    exact (hh.closed?_eq p).trans hx

/-- A host that can come to a chamber at all can come to it from an empty one. -/
theorem Reachable.later {limits : Limits} {clock : Clock} (h : Reachable limits clock c) :
    ∃ funds, (Chamber.empty limits clock funds).Later c := by
  induction h with
  | start funds => exact ⟨funds, .refl⟩
  | step _ s ih =>
    obtain ⟨funds, hl⟩ := ih
    exact ⟨funds, hl.step s⟩
  | host _ new ih =>
    obtain ⟨funds, hl⟩ := ih
    exact ⟨funds, hl.host new⟩

theorem Reachable.keeps {P : Assembly → Prop} {limits : Limits} {clock : Clock}
    (h : Reachable limits clock c)
    (hcall : ∀ d : Chamber σ, d.assembly.Orderly → P d.assembly → ∀ call,
      P (d.perform call).state.assembly)
    (hclock : ∀ s clock, P s → P { s with clock := clock }) (hP : P (.empty limits clock)) :
    P c.assembly := by
  obtain ⟨funds, hl⟩ := h.later
  exact hl.keeps (.empty limits clock) hcall hclock hP

theorem Later.limits_eq (h : c.Later c') (ho : c.assembly.Orderly) :
    c'.assembly.limits = c.assembly.limits :=
  h.keeps (P := fun s => s.limits = c.assembly.limits) ho
    (fun d _ hd call => (d.perform_fixed call).1.trans hd) (fun _ _ hs => hs) rfl

theorem Reachable.limits_eq {limits : Limits} {clock : Clock} (h : Reachable limits clock c) :
    c.assembly.limits = limits := by
  obtain ⟨funds, hl⟩ := h.later
  exact hl.limits_eq (.empty limits clock)

end AnyHost

/-! ### Ids that can be written -/

theorem Change.numbered (hc : c.Change call c' events notices a) (ho : c.assembly.Orderly)
    (h : c.assembly.Numbered) : c'.assembly.Numbered := by
  refine ⟨Int.le_trans h.nextId_nonneg hc.nextId_le, fun {p x} hx => ?_⟩
  by_cases hp : call.proposal? = some p
  · obtain ⟨y, hy⟩ := hc.exists_proposal hp
    exact h.proposal_nonneg hy
  · by_cases hn : p = c.assembly.nextId
    · exact hn ▸ h.nextId_nonneg
    · exact h.proposal_nonneg (((hc.frame ho hp).1 hn).symm.trans hx)

theorem Halfway.numbered (hh : c.Halfway call c') (h : c.assembly.Numbered) :
    c'.assembly.Numbered := by
  refine ⟨?_, fun {p x} hx => ?_⟩
  · cases hh with
    | vote => exact (Assembly.nextId_write ..).symm ▸ h.nextId_nonneg
  · by_cases hp : call.proposal? = some p
    · obtain ⟨y, hy⟩ := hh.exists_proposal hp
      exact h.proposal_nonneg hy
    · exact h.proposal_nonneg ((hh.frame hp).1.symm.trans hx)

variable [Host]

theorem Later.numbered (h : c.Later c') (ho : c.assembly.Orderly) (hn : c.assembly.Numbered) :
    c'.assembly.Numbered := by
  refine h.keeps ho (fun d hd hnum call => ?_)
    (fun _ _ hs => ⟨hs.nextId_nonneg, hs.proposal_nonneg⟩) hn
  refine perform_assembly call hnum ?_ ?_ ?_
  · intro _ _ _ _ hc
    have := hc.numbered hd hnum
    exact ⟨this.nextId_nonneg, this.proposal_nonneg⟩
  · intro _ _ _ _ hc _
    exact hc.numbered hd hnum
  · intro _ hh
    exact hh.numbered hnum

theorem Reachable.numbered {limits : Limits} {clock : Clock} (h : Reachable limits clock c) :
    c.assembly.Numbered := by
  obtain ⟨funds, hl⟩ := h.later
  exact hl.numbered (.empty limits clock) (.empty limits clock)

theorem Reachable.isWritable {limits : Limits} {clock : Clock} (h : Reachable limits clock c)
    (hn : c.assembly.nextId ≤ Value.writtenBound) {p : Int} {x : Proposal}
    (hx : c.assembly.proposal? p = some x) : Value.isWritable p = true :=
  h.numbered.isWritable h.orderly hn hx

end Chamber

end QuadraticVoting
