import QuadraticVoting.Proofs.Retelling

/-!
# The agenda in order

Every stored proposal keeps the limits (`Proposal.Within`): they are checked where it is created and
where its account list is replaced, nothing else that they bound ever changes, and the limits
themselves stay as they are.

The ids that creations answer grow from 0 on (`Chamber.Issues`), whatever is cancelled or refused in
between. They leave one out exactly where a creation was made that could not be told: it has used
up its id and answered none. So the next one to be answered is the number of those before it and of
those that the journal does not tell of (`Assembly.untold`).
-/

namespace QuadraticVoting

/-! ### Proposals within the limits -/

/-- A proposal as it may be stored under some limits. -/
structure Proposal.Within (x : Proposal) (limits : Limits) : Prop where
  status_eq : x.status = .pending ∨ x.status = .closed
  minimum_le : limits.minimum ≤ x.stop - x.start
  le_maximum : x.stop - x.start ≤ limits.maximum
  data_le : x.data.length ≤ limits.payload
  accounts_le : x.accounts.size ≤ limits.accounts

namespace Proposal.Within

variable {x : Proposal} {limits : Limits}

theorem start_lt_stop (h : x.Within limits) : x.start < x.stop := by
  have hmin := h.minimum_le
  have hone := limits.one_le_minimum
  omega

theorem edit (h : x.Within limits) {accounts : AccountList} (ha : accounts.size ≤ limits.accounts)
    {status : Stage} (hs : status = x.status ∨ status = .closed) (tally : Tally) :
    Within { x with accounts, status, tally } limits where
  status_eq := hs.elim (fun e => e ▸ h.status_eq) .inr
  minimum_le := h.minimum_le
  le_maximum := h.le_maximum
  data_le := h.data_le
  accounts_le := ha

end Proposal.Within

theorem Assembly.within_draftProposal {s : Assembly} {creator : Account} {d : Draft} {now : Int}
    {x : Proposal} (hx : s.draftProposal creator d now = .ok x) : x.Within s.limits := by
  obtain ⟨-, data, accounts, kind, hdata, haccounts, -, hwindow, rfl⟩ :=
    draftProposal_eq_ok_iff.1 hx
  obtain ⟨-, -, hmin, hmax⟩ := checkWindow_eq_ok_iff.1 hwindow
  exact {
    status_eq := .inl rfl
    minimum_le := hmin
    le_maximum := hmax
    data_le := Int.ofNat_le.1 (Payload.bounded_eq_ok_iff.1 hdata).2
    accounts_le := Int.ofNat_le.1 (AccountList.size_le_of_bounded haccounts) }

/-- The id in an answer, which only the answer to a creation has. -/
def Answer.id? : Answer → Option Int
  | id n => some n
  | done | flag _ | outcome _ | amount _ => none

namespace Chamber

variable {σ : Type} [FundLock σ] {c c' : Chamber σ} {call : Call} {events : List Event}
  {notices : List Log.Notice} {a : Answer} {p : Int} {x y : Proposal} {ids : List Int}

/-! ### One call -/

/-- What a call leaves under an id is within the limits, if what it finds there is. -/
theorem Edit.within {after : Option Proposal} (he : c.Edit p after call)
    (h : ∀ x, c.assembly.proposal? p = some x → x.Within c.assembly.limits)
    (hy : after = some y) : y.Within c.assembly.limits := by
  cases he with
  | kept hsame => exact h y (hsame.symm.trans hy)
  | created _ _ hx hnew =>
    cases hnew.symm.trans hy
    exact Assembly.within_draftProposal hx
  | cancelled _ hgone => cases hgone.symm.trans hy
  | @listed o arg x l hx hl hput =>
    cases hput.symm.trans hy
    have hsize := AccountList.size_le_of_bounded (Assembly.checkAccountList_eq_ok_iff.1 hl).2
    exact (h x (checkEditor_eq_ok_iff.1 hx).1).edit (Int.ofNat_le.1 hsize) (.inl rfl) x.tally
  | @closed o x hx _ hput =>
    cases hput.symm.trans hy
    have hin := h x (Assembly.checkClose_eq_ok_iff.1 hx).1
    exact hin.edit hin.accounts_le (.inr rfl) x.tally
  | counted _ hv _ hput =>
    cases hput.symm.trans hy
    have hin := h _ hv.proposal_eq
    exact hin.edit hin.accounts_le (.inl rfl) _
  | decided _ hv _ hput =>
    cases hput.symm.trans hy
    have hin := h _ hv.proposal_eq
    exact hin.edit hin.accounts_le (.inr rfl) _

theorem Change.id?_answer (hc : c.Change call c' events notices a) :
    a.id? = if call.creates then some c.assembly.nextId else none := by
  cases hc with
  | registered | unregistered | cancelled | listed | closed | voted | claimed => rfl
  | created ho hx =>
    obtain ⟨-, data, accounts, kind, -, -, -, -, rfl⟩ := Assembly.draftProposal_eq_ok_iff.1 hx
    rfl

section AnyHost

variable [Host]

/-- The id that a step answers. -/
def issued (c : Chamber σ) : Step → Option Int
  | .call x => (c.perform x).result.toOption.bind Answer.id?
  | .setBlock _ | .advance _ => none

theorem issued_of_error {f : Fault} (hr : (c.perform call).result = .error f) :
    c.issued (.call call) = none := by
  rw [issued, hr]
  rfl

theorem issued_of_ok (hr : (c.perform call).result = .ok a) : c.issued (.call call) = a.id? := by
  rw [issued, hr]
  rfl

/-- An id is answered where the journal comes to tell of a creation: the next one. -/
theorem step_issued (c : Chamber σ) (s : Step) :
    (c.issued s = some c.assembly.nextId ∧
      (c.step s).state.assembly.journal.countP Event.creates =
        c.assembly.journal.countP Event.creates + 1) ∨
    (c.issued s = none ∧ (c.step s).state.assembly.journal.countP Event.creates =
      c.assembly.journal.countP Event.creates) := by
  cases s with
  | setBlock | advance => exact .inr ⟨rfl, rfl⟩
  | call x =>
    show _ ∧ (c.perform x).state.assembly.journal.countP _ = _ ∨
      _ ∧ (c.perform x).state.assembly.journal.countP _ = _
    cases c.perform_course x with
    | refused hf hr hs | muted hq hr hs => exact .inr ⟨issued_of_error hr, by rw [hs]⟩
    | quiet hq hr hs =>
      refine .inr ⟨(issued_of_ok hr).trans ?_, by rw [hs]⟩
      cases hq <;> rfl
    | unfunded hu hr hs => exact .inr ⟨issued_of_error hr, by rw [hs]; rfl⟩
    | @done c' events notices a hc hn hr hs =>
      have hcount := hc.countP_creates
      have hjournal : (c.perform x).state.assembly.journal = c.assembly.journal ++ events := by
        rw [hs, ← hc.journal]
        rfl
      rw [issued_of_ok hr, hc.id?_answer, hjournal, List.countP_append]
      cases hcreates : x.creates with
      | true =>
        rw [hcreates, if_pos rfl] at hcount
        exact .inl ⟨rfl, by omega⟩
      | false =>
        rw [hcreates, if_neg Bool.false_ne_true] at hcount
        exact .inr ⟨rfl, by omega⟩
    | untold hc hn hr hs => exact .inr ⟨issued_of_error hr, by rw [hs, hc.journal]⟩
    | halfway hh hr hs => exact .inr ⟨issued_of_error hr, by rw [hs, hh.journal]⟩

/-- A creation answers an id if and only if it passes its checks and can be told. -/
theorem issued_isSome_iff (h : c.assembly.Orderly) (hcall : call.creates = true) :
    (c.issued (.call call)).isSome = true ↔
      (c.checks call).isOk = true ∧ c.hides (.call call) = false := by
  cases c.perform_course call with
  | refused hf hr hs =>
    rw [issued_of_error hr, hf]
    exact ⟨nofun, fun hok => nomatch hok.1⟩
  | quiet hq | muted hq => cases hq <;> cases hcall
  | unfunded hu => cases hu <;> cases hcall
  | done hc hn hr hs =>
    rw [issued_of_ok hr, hc.id?_answer, hcall, hc.checks_eq_ok]
    exact ⟨fun _ => ⟨rfl, (hc.hides_eq_false_iff h hcall).2 hn⟩, fun _ => rfl⟩
  | untold hc hn hr hs =>
    rw [issued_of_error hr]
    exact ⟨nofun, fun hok => absurd ((hc.hides_eq_false_iff h hcall).1 hok.2) hn⟩
  | halfway hh =>
    cases hh
    cases hcall

/-! ### Any number of steps -/

/-- Whatever is called and done, stored proposals are within the limits of the start. -/
theorem Reachable.within {limits : Limits} {clock : Clock} (h : Reachable limits clock c)
    (hx : c.assembly.proposal? p = some x) : x.Within limits := by
  have hall := h.keeps
    (P := fun s => s.limits = limits ∧ ∀ q y, s.proposal? q = some y → y.Within limits)
    (fun d ho ⟨hl, hd⟩ call => ?_) (fun _ _ hs => hs) ⟨rfl, fun _ _ hy => nomatch hy⟩
  · exact hall.2 p x hx
  · refine ⟨(d.perform_fixed call).1.trans hl, fun q y hy => ?_⟩
    have hbefore : ∀ z, d.assembly.proposal? q = some z → z.Within d.assembly.limits :=
      fun z hz => hl.symm ▸ hd q z hz
    exact hl ▸ (perform_edit ho call q).within hbefore hy

/-- A host can come from `c` to the other chamber, and on the way the creations that go well answer
these ids. -/
inductive Issues (c : Chamber σ) : List Int → Chamber σ → Prop
  | refl : Issues c [] c
  | step {ids : List Int} {d : Chamber σ} (h : Issues c ids d) (s : Step) :
      Issues c (ids ++ (d.issued s).toList) (d.step s).state
  | host {ids : List Int} {d : Chamber σ} (h : Issues c ids d) (funds : σ) :
      Issues c ids (d.withFunds funds)

theorem Issues.reachable {limits : Limits} {clock : Clock} {funds : σ}
    (h : (Chamber.empty limits clock funds).Issues ids c) : Reachable limits clock c := by
  induction h with
  | refl => exact .start funds
  | step _ s ih => exact ih.step s
  | host _ funds ih => exact ih.host funds

/-- The ids that a run answers. -/
def issuedIn (c : Chamber σ) : List Step → List Int
  | [] => []
  | s :: rest => (c.issued s).toList ++ issuedIn (c.step s).state rest

theorem Issues.run (h : c.Issues ids c') (steps : List Step) :
    c.Issues (ids ++ c'.issuedIn steps) (c'.run steps) := by
  induction steps generalizing ids c' with
  | nil => exact (List.append_nil ids).symm ▸ h
  | cons s rest ih =>
    rw [issuedIn, ← List.append_assoc]
    exact ih (h.step s)

theorem issues_run (c : Chamber σ) (steps : List Step) :
    c.Issues (c.issuedIn steps) (c.run steps) := by
  have h := (Issues.refl (c := c)).run steps
  rwa [List.nil_append] at h

/-- Ids that have been answered up to some assembly. -/
structure Issued (ids : List Int) (s : Assembly) : Prop where
  length_eq : ids.length = s.journal.countP Event.creates
  ascending : ids.Pairwise (· < ·)
  range : ∀ n ∈ ids, 0 ≤ n ∧ n < s.nextId
  gapless : s.untold = 0 → ids = (List.range ids.length).map Int.ofNat

omit [Host] in
theorem Issued.nextId_eq {s : Assembly} (h : Issued ids s) :
    s.nextId = ids.length + s.untold := by
  have hlength := h.length_eq
  unfold Assembly.untold
  omega

theorem Issued.step (h : Issued ids c.assembly) (ho : c.assembly.Orderly)
    (hn : c.assembly.Numbered) (hu : 0 ≤ c.assembly.untold) (s : Step) :
    Issued (ids ++ (c.issued s).toList) (c.step s).state.assembly := by
  have huntold := step_untold ho s
  have hle : c.assembly.untold ≤ (c.step s).state.assembly.untold := by
    rw [huntold]
    split <;> omega
  have hlength := h.length_eq
  have hnext := h.nextId_eq
  have hnonneg := hn.nextId_nonneg
  have hnext' : (c.step s).state.assembly.nextId = (c.step s).state.assembly.untold +
      (c.step s).state.assembly.journal.countP Event.creates := (Int.sub_add_cancel ..).symm
  rcases c.step_issued s with ⟨hs, hcount⟩ | ⟨hs, hcount⟩
  · rw [hs, Option.toList_some]
    refine ⟨?_, ?_, fun n hmem => ?_, fun h0 => ?_⟩
    · rw [hcount, ← hlength, List.length_append, List.length_singleton]
    · refine List.pairwise_append.2 ⟨h.ascending, List.pairwise_singleton .., fun n hmem m hm => ?_⟩
      rw [List.mem_singleton.1 hm]
      exact (h.range n hmem).2
    · rcases List.mem_append.1 hmem with hmem | hmem
      · have := h.range n hmem
        omega
      · rw [List.mem_singleton.1 hmem]
        omega
    · have hlast : c.assembly.nextId = Int.ofNat ids.length := by
        show c.assembly.nextId = (ids.length : Int)
        omega
      rw [List.length_append, List.length_singleton, List.range_succ, List.map_append,
        ← h.gapless (by omega), hlast]
      rfl
  · rw [hs, Option.toList_none, List.append_nil]
    refine ⟨hlength.trans hcount.symm, h.ascending, fun n hmem => ?_,
      fun h0 => h.gapless (by omega)⟩
    have := h.range n hmem
    omega

theorem Issues.issued {limits : Limits} {clock : Clock} {funds : σ}
    (h : (Chamber.empty limits clock funds).Issues ids c) : Issued ids c.assembly := by
  induction h with
  | refl => exact ⟨rfl, .nil, nofun, fun _ => rfl⟩
  | step h s ih =>
    have hreach := h.reachable
    exact ih.step hreach.orderly hreach.numbered hreach.retold.untold_nonneg s
  | host _ _ ih => exact ⟨ih.length_eq, ih.ascending, ih.range, ih.gapless⟩

/-- With any funds, any moves of the clock and whatever is refused or cancelled: every stored
proposal is kept under its id, which has been handed out, and within the limits; every live ballot
is under an id that has been handed out; and the ids that creations answer grow from 0 on. They are
all ids, without a gap, if and only if the journal tells of each. The next one to be answered is the
number of those before it and of those that the journal does not tell of. A creation that passes its
checks answers it if it can be told, and a step adds to the ids not told of if and only if it makes
a creation that cannot. -/
theorem issues_in_order (limits : Limits) (clock : Clock) (funds : σ)
    (h : (Chamber.empty limits clock funds).Issues ids c) :
    (∀ p x, c.assembly.proposal? p = some x → x.id = p ∧ 0 ≤ p ∧ p < c.assembly.nextId ∧
      x.Within limits ∧ x.start < x.stop ∧ x.accounts.members.Nodup) ∧
    (∀ p v b, c.assembly.ballot? p v = some b → b.proposal = p ∧ p < c.assembly.nextId) ∧
    ids.Pairwise (· < ·) ∧ (∀ n ∈ ids, 0 ≤ n ∧ n < c.assembly.nextId) ∧
    (ids = (List.range c.assembly.nextId.toNat).map Int.ofNat ↔ c.assembly.untold = 0) ∧
    (∀ s n, c.issued s = some n → n = ids.length + c.assembly.untold) ∧
    (∀ call, call.creates = true → ((c.issued (.call call)).isSome = true ↔
      (c.checks call).isOk = true ∧ c.hides (.call call) = false)) ∧
    ∀ s, (c.step s).state.assembly.untold = c.assembly.untold + if c.hides s then 1 else 0 := by
  have hreach := h.reachable
  have hissued := h.issued
  have hnext := hissued.nextId_eq
  have huntold := hreach.retold.untold_nonneg
  refine ⟨fun p x hx => ?_, fun p v b hb => ?_, hissued.ascending, hissued.range,
    ⟨fun he => ?_, fun h0 => ?_⟩, fun s n hn => ?_,
    fun call hcall => issued_isSome_iff hreach.orderly hcall, step_untold hreach.orderly⟩
  · have hfiled := hreach.orderly.proposals hx
    have hin := hreach.within hx
    exact ⟨hfiled.id_eq, hreach.numbered.proposal_nonneg hx, hfiled.issued, hin,
      hin.start_lt_stop, x.accounts.nodup⟩
  · have hfiled := hreach.orderly.ballots hb
    exact ⟨hfiled.proposal_eq, hfiled.issued⟩
  · have hlength := congrArg List.length he
    rw [List.length_map, List.length_range] at hlength
    omega
  · have hlast : c.assembly.nextId.toNat = ids.length := by omega
    rw [hlast]
    exact hissued.gapless h0
  · rcases c.step_issued s with ⟨hs, -⟩ | ⟨hs, -⟩
    · exact (Option.some.inj (hn.symm.trans hs)).trans hnext
    · cases hn.symm.trans hs

end AnyHost

/-- Three creations that go well, one that is refused and a cancellation among them, answer 0, 1
and 2. -/
theorem issues_in_order_cancelled :
    let start := Chamber.empty .standard .zero (⟨20, false, []⟩ : HostFunds)
    let draft : Draft := ⟨.bytes [1], .kind .publicVote, .accounts [Round.bob], 1, 101⟩
    let steps : List Step := [
      .call (.registerVoter .root Round.ann),
      .call (.createProposal ⟨Round.ann, false⟩ draft),
      .call (.createProposal ⟨Round.bob, false⟩ draft),
      .call (.createProposal ⟨Round.ann, false⟩ draft),
      .call (.cancelProposal .root 1),
      .call (.createProposal ⟨Round.ann, false⟩ draft),
      .call (.setAccountList ⟨Round.ann, false⟩ 2 (.accounts [Round.ann, Round.ann]))]
    let c := start.run steps
    start.Issues (start.issuedIn steps) c ∧ c.assembly.untold = 0 ∧
      start.issuedIn steps = [0, 1, 2] ∧ c.assembly.proposals.keys = [0, 2] := by
  intro start draft steps c
  have hissues : start.Issues (start.issuedIn steps) c := issues_run start steps
  have h := issues_in_order .standard .zero _ hissues
  have h0 : c.assembly.untold = 0 := by decide
  have hnext : c.assembly.nextId = 3 := by decide
  have hids := h.2.2.2.2.1.2 h0
  rw [hnext] at hids
  exact ⟨hissues, h0, hids, by decide⟩

/-- The first id that is answered is 1: a creation whose last block is too large to be written has
used up the one before, and has failed. -/
theorem hidden_creation_skips_id :
    let start := Chamber.empty wideLimits .zero (Ledger.create Round.symbol []).state
    let steps : List Step := [
      .call (.registerVoter .root Round.ann),
      .call (.createProposal ⟨Round.ann, false⟩
        ⟨.bytes [], .kind .publicVote, .none, 0, Value.writtenBound⟩),
      .call (.createProposal ⟨Round.ann, false⟩ ⟨.bytes [], .kind .publicVote, .none, 0, 101⟩)]
    start.issuedIn steps = [1] ∧ (start.run steps).assembly.untold = 1 := by
  decide +kernel

end Chamber

end QuadraticVoting
