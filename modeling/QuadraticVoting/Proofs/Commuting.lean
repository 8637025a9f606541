import QuadraticVoting.Proofs.Strokes

/-!
# Votes and claims of different accounts commute

What a vote or a claim looks at besides the caller's own ballot and funds is the clock, the registry
and the proposal; of a public proposal it looks at everything but the tally, which only tells it
what to answer. A call of another account leaves all of that as it is, if it is on another proposal
or on the same public one (`Struck.untouched`). So the two calls, in either order, meet the same
conditions and make the same strokes (`Untouched.conditions_eq`, `Untouched.strikes`), and strokes
of different accounts commute (`Struck.same`): tallies add up, each voter's ballot and frozen amount
is its own.
-/

namespace QuadraticVoting

/-- A call on the caller's own ballot. -/
inductive BallotCall
  | vote (origin : Origin) (proposal : Int) (aye weight : Value)
  | claim (origin : Origin) (proposal : Int)
deriving DecidableEq

namespace BallotCall

def call : BallotCall → Call
  | vote o p aye weight => .vote o p aye weight
  | claim o p => .claim o p

def voter : BallotCall → Account
  | vote o .. | claim o _ => o.account

def proposal : BallotCall → Int
  | vote _ p .. | claim _ p => p

end BallotCall

namespace Answer

/-- An answer without the tally that it reports. -/
def withoutTally : Answer → Answer
  | outcome o => outcome { o with tally := .zero }
  | a => a

end Answer

/-! ### Shifts of different accounts -/

namespace Ledger

variable {l l' : Ledger} {a b : Account} {d e : Int}

/-- What a shift adds to the journal. -/
def shiftEntries (l : Ledger) (a : Account) (d : Int) : List LedgerEvent :=
  if 0 < d then [.frozen a d (l.frozenOf a + d)]
  else if d < 0 then [.thawed a (-d) (l.frozenOf a - -d)]
  else []

theorem shift_eq (l : Ledger) (a : Account) (d : Int) : l.shift a d =
    { l with frozen := (l.shift a d).frozen, journal := l.journal ++ l.shiftEntries a d } := by
  unfold shift shiftEntries
  split
  · rfl
  · split
    · rfl
    · rw [List.append_nil]

theorem frozen_shift_of_ne (l : Ledger) (d : Int) (h : b ≠ a) :
    (l.shift a d).frozen.get? b = l.frozen.get? b := by
  unfold shift freeze thaw
  split
  · exact OrdMap.get?_insert_of_ne _ _ h
  · split
    · dsimp only
      split
      · exact OrdMap.get?_erase_of_ne _ h
      · exact OrdMap.get?_insert_of_ne _ _ h
    · rfl

theorem frozen_shift_self (h : l'.frozen.get? a = l.frozen.get? a) (d : Int) :
    (l'.shift a d).frozen.get? a = (l.shift a d).frozen.get? a := by
  have hf : l'.frozenOf a = l.frozenOf a := congrArg (Option.getD · 0) h
  unfold shift freeze thaw
  rw [hf]
  split
  · dsimp only
    rw [OrdMap.get?_insert_self, OrdMap.get?_insert_self]
  · split
    · dsimp only
      split
      · rw [OrdMap.get?_erase_self, OrdMap.get?_erase_self]
      · rw [OrdMap.get?_insert_self, OrdMap.get?_insert_self]
    · exact h

theorem frozen_shift_comm (l : Ledger) (hab : a ≠ b) (v : Account) :
    ((l.shift a d).shift b e).frozen.get? v = ((l.shift b e).shift a d).frozen.get? v := by
  by_cases ha : v = a
  · subst ha
    rw [frozen_shift_of_ne _ _ hab]
    exact (frozen_shift_self (l.frozen_shift_of_ne e hab) d).symm
  · rw [frozen_shift_of_ne (l.shift b e) d ha]
    by_cases hb : v = b
    · subst hb
      exact frozen_shift_self (l.frozen_shift_of_ne d hab.symm) e
    · rw [frozen_shift_of_ne _ _ hb, frozen_shift_of_ne _ _ ha, frozen_shift_of_ne _ _ hb]

theorem shift_shift_eq (l : Ledger) (hab : a ≠ b) : (l.shift a d).shift b e =
    { l with
      frozen := ((l.shift a d).shift b e).frozen
      journal := l.journal ++ (l.shiftEntries a d ++ l.shiftEntries b e) } := by
  have hentries : (l.shift a d).shiftEntries b e = l.shiftEntries b e := by
    unfold shiftEntries frozenOf
    rw [l.frozen_shift_of_ne d hab.symm]
  refine ((l.shift a d).shift_eq b e).trans ?_
  rw [hentries]
  generalize ((l.shift a d).shift b e).frozen = frozen
  rw [l.shift_eq a d, ← List.append_assoc]

end Ledger

namespace Stroke

theorem count_comm (k m : Stroke) (x : Proposal) : k.count (m.count x) = m.count (k.count x) := by
  unfold count
  have haye : x.tally.aye + m.aye + k.aye = x.tally.aye + k.aye + m.aye := by omega
  have htotal : x.tally.total + m.total + k.total = x.tally.total + k.total + m.total := by omega
  dsimp only
  rw [haye, htotal]
  cases k.closes <;> cases m.closes <;> rfl

end Stroke

namespace Chamber

/-! ### The same chamber but for the order of writing -/

/-- Chambers that hold the same, but for the order in which their maps and journals came about. -/
structure Same (c c' : Chamber Ledger) : Prop where
  limits_eq : c'.assembly.limits = c.assembly.limits
  clock_eq : c'.assembly.clock = c.assembly.clock
  registry_eq : c'.assembly.registry = c.assembly.registry
  nextId_eq : c'.assembly.nextId = c.assembly.nextId
  proposal_eq : ∀ p, c'.assembly.proposal? p = c.assembly.proposal? p
  ballot_eq : ∀ p v, c'.assembly.ballot? p v = c.assembly.ballot? p v
  journal_perm : c'.assembly.journal.Perm c.assembly.journal
  symbol_eq : c'.funds.symbol = c.funds.symbol
  balances_eq : c'.funds.balances = c.funds.balances
  issuance_eq : c'.funds.issuance = c.funds.issuance
  frozen_eq : ∀ a, c'.funds.frozen.get? a = c.funds.frozen.get? a
  entries_perm : c'.funds.journal.Perm c.funds.journal

theorem Same.refl (c : Chamber Ledger) : c.Same c :=
  ⟨rfl, rfl, rfl, rfl, fun _ => rfl, fun _ _ => rfl, .refl _, rfl, rfl, rfl, fun _ => rfl, .refl _⟩

variable {c c₁ c₂ d e : Chamber Ledger} {k m : Stroke}

/-- Two strokes of different voters lead to the same chamber in either order. -/
theorem Struck.same (h₁ : c.Struck c₁ k) (h₁' : c₁.Struck d m) (h₂ : c.Struck c₂ m)
    (h₂' : c₂.Struck e k) (hv : k.voter ≠ m.voter) : d.Same e := by
  have hd := h₁.assembly_eq ▸ h₁'.assembly_eq
  have he := h₂.assembly_eq ▸ h₂'.assembly_eq
  have hfd : d.funds = (c.funds.shift k.voter k.delta).shift m.voter m.delta :=
    h₁.funds_eq ▸ h₁'.funds_eq
  have hfe : e.funds = (c.funds.shift m.voter m.delta).shift k.voter k.delta :=
    h₂.funds_eq ▸ h₂'.funds_eq
  have hfd' := hfd.trans (c.funds.shift_shift_eq hv)
  have hfe' := hfe.trans (c.funds.shift_shift_eq hv.symm)
  refine {
    limits_eq := by rw [hd, he], clock_eq := by rw [hd, he], registry_eq := by rw [hd, he]
    nextId_eq := by rw [hd, he], symbol_eq := by rw [hfd', hfe']
    balances_eq := by rw [hfd', hfe'], issuance_eq := by rw [hfd', hfe']
    proposal_eq := fun p => ?_, ballot_eq := fun p v => ?_, journal_perm := ?_
    frozen_eq := fun a => ?_, entries_perm := ?_ }
  · rw [h₁'.proposal_eq, h₁.proposal_eq, h₂'.proposal_eq, h₂.proposal_eq]
    split
    · split
      · rw [Option.map_map, Option.map_map]
        exact congrArg (Option.map · _) (funext fun x => k.count_comm m x)
      · rfl
    · rfl
  · rw [h₁'.ballot_eq, h₁.ballot_eq, h₂'.ballot_eq, h₂.ballot_eq]
    by_cases hk : v = k.voter
    · have hm : v ≠ m.voter := hk ▸ hv
      simp only [hm, and_false, if_false]
    · simp only [hk, and_false, if_false]
  · rw [hd, he]
    show ((c.assembly.journal ++ m.events) ++ k.events).Perm
      ((c.assembly.journal ++ k.events) ++ m.events)
    rw [List.append_assoc, List.append_assoc]
    exact List.Perm.append_left _ List.perm_append_comm
  · rw [hfd, hfe]
    exact c.funds.frozen_shift_comm hv.symm a
  · rw [hfd', hfe']
    exact List.Perm.append_left _ List.perm_append_comm

/-! ### What a call meets and makes -/

/-- What a call asks for, from first to last. -/
def conditions (c : Chamber Ledger) : BallotCall → List Condition
  | .vote o p aye weight => c.assembly.voteConditions c.funds.spendable o p aye.truthy weight
  | .claim o p => c.assembly.claimConditions o p

/-- The stroke and the answer of a call that meets its conditions. -/
inductive Strikes (c : Chamber Ledger) : BallotCall → Stroke → Answer → Prop
  | vote {o : Origin} {p n : Int} {aye : Value} {x : Proposal} {b : Ballot}
      (hx : c.assembly.proposal? p = some x) (hb : b = ⟨p, o.account, aye.truthy, n⟩) :
      Strikes c (.vote o p aye (.int n))
        (b.voteStroke (c.assembly.ballot? p o.account) x (Value.isWritable p))
        (.outcome (b.outcome (c.assembly.ballot? p o.account) x))
  | claim {o : Origin} {p : Int} {b : Ballot} (hb : c.assembly.ballot? p o.account = some b)
      (hp : b.proposal = p) (hv : b.voter = o.account) :
      Strikes c (.claim o p) (b.claimStroke (Value.isWritable p)) (.amount b.locked)

variable {gone gone' : List Ballot} {x y : BallotCall} {a : Answer} {v : Account} {p : Int}

/-- A vote or a claim is told the first condition that it does not meet, or makes its stroke. -/
theorem perform_strikes [Host] (hb : c.Backed) (h : c.assembly.Counted c.funds.issuance gone)
    (x : BallotCall) :
    let r := c.perform x.call
    (∀ f, firstFault (c.conditions x) = some f → r.result = .error f.told ∧ r.state = c) ∧
      (firstFault (c.conditions x) = none → ∃ k a, c.Strikes x k a ∧
        r.result = (if Value.isWritable x.proposal then .ok a else .error (.excess .integer)) ∧
        c.Struck r.state k) := by
  cases x with
  | vote o p aye weight =>
    obtain ⟨hstops, hstrikes⟩ := perform_vote_struck hb h o p aye weight
    refine ⟨hstops, fun hnone => ?_⟩
    obtain ⟨n, x, rfl, hx, hr, hs⟩ := hstrikes hnone
    exact ⟨_, _, .vote hx rfl, hr, hs⟩
  | claim o p =>
    obtain ⟨hstops, hstrikes⟩ := perform_claim_struck hb o p
    refine ⟨hstops, fun hnone => ?_⟩
    obtain ⟨b, hlive, hr, hs⟩ := hstrikes hnone
    have hfiled := hb.regular.orderly.ballots hlive
    exact ⟨_, _, .claim hlive hfiled.proposal_eq hfiled.voter_eq, hr, hs⟩

theorem Strikes.unique (h : c.Strikes x k a) {a' : Answer} (h' : c.Strikes x m a') :
    k = m ∧ a = a' := by
  cases h with
  | vote hx hb =>
    cases h' with
    | vote hx' hb' =>
      cases hx.symm.trans hx'
      cases hb.trans hb'.symm
      exact ⟨rfl, rfl⟩
  | claim hb hp hv =>
    cases h' with
    | claim hb' hp' hv' =>
      cases hb.symm.trans hb'
      exact ⟨rfl, rfl⟩

theorem Strikes.voter_eq (h : c.Strikes x k a) : k.voter = x.voter := by
  cases h with
  | vote hx hb => rw [hb]; rfl
  | claim hb hp hv => exact hv

theorem Strikes.proposal_eq (h : c.Strikes x k a) : k.proposal = x.proposal := by
  cases h with
  | vote hx hb => rw [hb]; rfl
  | claim hb hp hv => exact hp

theorem Strikes.closes_eq_false (h : c.Strikes x k a) {z : Proposal}
    (hz : c.assembly.proposal? x.proposal = some z) (hk : z.kind = .publicVote) :
    k.closes = false := by
  cases h with
  | vote hx hb =>
    cases hz.symm.trans hx
    simp [Ballot.voteStroke, Ballot.outcome, hk]
  | claim => rfl

/-! ### What a call looks at -/

/-- What a call of an account on a proposal looks at is the same in both chambers, but for the tally
of a public proposal. -/
structure Untouched (c c' : Chamber Ledger) (v : Account) (p : Int) : Prop where
  now_eq : c'.assembly.now = c.assembly.now
  registry_eq : c'.assembly.registry = c.assembly.registry
  ballot_eq : c'.assembly.ballot? p v = c.assembly.ballot? p v
  spendable_eq : c'.funds.spendable v = c.funds.spendable v
  proposal_eq : c'.assembly.proposal? p = c.assembly.proposal? p ∨
    ∃ z t, z.kind = .publicVote ∧ c.assembly.proposal? p = some z ∧
      c'.assembly.proposal? p = some { z with tally := t }

theorem Untouched.refl (c : Chamber Ledger) (v : Account) (p : Int) : c.Untouched c v p :=
  ⟨rfl, rfl, rfl, rfl, .inl rfl⟩

/-- A stroke of another account on another proposal, or on the same public one, touches nothing of
what a call looks at. -/
theorem Struck.untouched (h : c.Struck d k) (hv : v ≠ k.voter)
    (hp : p = k.proposal → ∀ z, c.assembly.proposal? p = some z →
      z.kind = .publicVote ∧ k.closes = false) : c.Untouched d v p where
  now_eq := h.now_eq
  registry_eq := h.registry_eq
  ballot_eq := (h.ballot_eq p v).trans (if_neg fun e => hv e.2)
  spendable_eq := by
    have hfrozen := h.frozenOf_eq v
    rw [if_neg hv, Int.add_zero] at hfrozen
    have hbalance : d.funds.balanceOf v = c.funds.balanceOf v := by
      rw [h.funds_eq, Ledger.shift_eq]
      rfl
    unfold Ledger.spendable
    rw [hfrozen, hbalance]
  proposal_eq := by
    have hd := h.proposal_eq p
    by_cases he : p = k.proposal
    · rw [if_pos he] at hd
      cases hz : c.assembly.proposal? p with
      | none => exact .inl (hd.trans (congrArg (Option.map k.count) hz))
      | some z =>
        obtain ⟨hkind, hcloses⟩ := hp he z hz
        refine .inr ⟨z, (k.count z).tally, hkind, rfl, ?_⟩
        rw [hd, hz, Option.map_some, Stroke.count, hcloses]
        rfl
    · exact .inl (hd.trans (if_neg he))

theorem Untouched.conditions_eq (h : c.Untouched d x.voter x.proposal) :
    d.conditions x = c.conditions x := by
  have hreg := h.registry_eq
  have hnow := h.now_eq
  cases x with
  | vote o p aye weight =>
    have hballot : d.assembly.ballot? p o.account = c.assembly.ballot? p o.account := h.ballot_eq
    have hspend : d.funds.spendable o.account = c.funds.spendable o.account := h.spendable_eq
    simp only [conditions, Assembly.voteConditions, hreg, hnow, hballot, hspend]
    rcases h.proposal_eq with he | ⟨z, t, -, hz, hz'⟩
    · have hp : d.assembly.proposal? p = c.assembly.proposal? p := he
      rw [hp]
    · have hp : c.assembly.proposal? p = some z := hz
      have hp' : d.assembly.proposal? p = some { z with tally := t } := hz'
      rw [hp, hp']
      cases weight <;> rfl
  | claim o p =>
    have hvoted : d.assembly.hasVoted p o.account = c.assembly.hasVoted p o.account :=
      congrArg Option.isSome h.ballot_eq
    simp only [conditions, Assembly.claimConditions, hreg, hvoted]
    rcases h.proposal_eq with he | ⟨z, t, -, hz, hz'⟩
    · have hp : d.assembly.proposal? p = c.assembly.proposal? p := he
      rw [hp]
    · have hp : c.assembly.proposal? p = some z := hz
      have hp' : d.assembly.proposal? p = some { z with tally := t } := hz'
      rw [hp, hp']
      rfl

/-- A call on the same proposal makes the same stroke, and its answer differs in the tally alone. -/
theorem Untouched.strikes (h : c.Untouched d x.voter x.proposal) (hs : c.Strikes x k a) :
    ∃ a', d.Strikes x k a' ∧ a'.withoutTally = a.withoutTally := by
  cases hs with
  | @vote o p n aye z b hx hb =>
    have hballot : d.assembly.ballot? p o.account = c.assembly.ballot? p o.account := h.ballot_eq
    rw [← hballot]
    rcases h.proposal_eq with he | ⟨z', t, hkind, hz, hz'⟩
    · exact ⟨_, .vote (he.trans hx) hb, rfl⟩
    · cases hz.symm.trans hx
      refine ⟨.outcome (b.outcome (d.assembly.ballot? p o.account) { z with tally := t }), ?_, ?_⟩
      · have hstroke : b.voteStroke (d.assembly.ballot? p o.account) z (Value.isWritable p) =
            b.voteStroke (d.assembly.ballot? p o.account) { z with tally := t }
              (Value.isWritable p) := by
          simp [Ballot.voteStroke, Ballot.outcome, voteEvents, hkind]
        rw [hstroke]
        exact .vote hz' hb
      · simp [Answer.withoutTally, Ballot.outcome, hkind]
  | claim hb hp hv => exact ⟨_, .claim (h.ballot_eq.trans hb) hp hv, rfl⟩

/-! ### Both orders -/

/-- A call does the same in two chambers that agree on all it looks at: it answers the same but for
the tally, and it changes neither of them or makes the same stroke in both. -/
theorem Untouched.perform [Host] (h : c.Untouched d x.voter x.proposal) (hb : c.Backed)
    (hc : c.assembly.Counted c.funds.issuance gone) (hb' : d.Backed)
    (hc' : d.assembly.Counted d.funds.issuance gone') :
    (d.perform x.call).result.map Answer.withoutTally =
        (c.perform x.call).result.map Answer.withoutTally ∧
      ((c.perform x.call).state = c ∧ (d.perform x.call).state = d ∨
        ∃ k a, c.Strikes x k a ∧ c.Struck (c.perform x.call).state k ∧
          d.Struck (d.perform x.call).state k) := by
  obtain ⟨hstops, hstrikes⟩ := perform_strikes hb hc x
  obtain ⟨hstops', hstrikes'⟩ := perform_strikes hb' hc' x
  rw [h.conditions_eq] at hstops' hstrikes'
  cases hfirst : firstFault (c.conditions x) with
  | some f =>
    obtain ⟨hr, hs⟩ := hstops f hfirst
    obtain ⟨hr', hs'⟩ := hstops' f hfirst
    exact ⟨by rw [hr, hr'], .inl ⟨hs, hs'⟩⟩
  | none =>
    obtain ⟨k, a, hk, hr, hs⟩ := hstrikes hfirst
    obtain ⟨k', a', hk', hr', hs'⟩ := hstrikes' hfirst
    obtain ⟨a'', hk'', ha⟩ := h.strikes hk
    obtain ⟨rfl, rfl⟩ := hk'.unique hk''
    refine ⟨?_, .inr ⟨k', a, hk, hs, hs'⟩⟩
    rw [hr, hr']
    split
    · exact congrArg Except.ok ha
    · rfl

/-- A call of one account leaves what one of another account looks at, on another proposal or on
the same public one. -/
theorem perform_untouched [Host] (hb : c.Backed) (hc : c.assembly.Counted c.funds.issuance gone)
    (hv : x.voter ≠ y.voter)
    (hp : x.proposal = y.proposal → ∀ z, c.assembly.proposal? y.proposal = some z →
      z.kind = .publicVote) :
    c.Untouched (c.perform y.call).state x.voter x.proposal := by
  obtain ⟨hstops, hstrikes⟩ := perform_strikes hb hc y
  cases hfirst : firstFault (c.conditions y) with
  | some f =>
    rw [(hstops f hfirst).2]
    exact .refl ..
  | none =>
    obtain ⟨k, a, hk, -, hs⟩ := hstrikes hfirst
    refine hs.untouched (hk.voter_eq ▸ hv) fun he z hz => ?_
    have hsame := he.trans hk.proposal_eq
    have hkind := hp hsame z (hsame ▸ hz)
    exact ⟨hkind, hk.closes_eq_false (hsame ▸ hz) hkind⟩

/-- In a run with any calls, mints and locks, but without unlocks on the ledger itself: two calls of
different accounts, each a vote or a claim, on different proposals or on the same public one. In
either order each is refused with the same fault, or answers the same but for the tally that it
reports, and both orders lead to the same chamber, but for the order in which its maps and journals
came about. -/
theorem ledgerRun_commute [Host] (limits : Limits) (clock : Clock) (symbol : Text)
    (opening : List (Account × Int)) (steps : List LedgerStep)
    (hu : ∀ s ∈ steps, s.isUnlock = false) (x y : BallotCall) (hv : x.voter ≠ y.voter) :
    let c := (Chamber.empty limits clock (Ledger.create symbol opening).state).ledgerRun steps
    (x.proposal = y.proposal → ∀ z, c.assembly.proposal? y.proposal = some z →
      z.kind = .publicVote) →
    let first := c.perform x.call
    let second := first.state.perform y.call
    let first' := c.perform y.call
    let second' := first'.state.perform x.call
    second'.result.map Answer.withoutTally = first.result.map Answer.withoutTally ∧
      second.result.map Answer.withoutTally = first'.result.map Answer.withoutTally ∧
      second.state.Same second'.state := by
  intro c hp first second first' second'
  have hstart := Backed.empty limits clock symbol opening
  have hb : c.Backed := ledgerRun_backed hstart hu
  have hc := ledgerRun_counted hstart (.empty limits clock _) hu
  have hb' : ∀ z : BallotCall, (c.perform z.call).state.Backed := fun z =>
    ledgerStep_backed (s := .step (.call z.call)) hb rfl
  have hx : c.Untouched first'.state x.voter x.proposal := perform_untouched hb hc hv hp
  have hy : c.Untouched first.state y.voter y.proposal :=
    perform_untouched hb hc hv.symm fun he z hz => hp he.symm z (he ▸ hz)
  obtain ⟨hrx, hsx⟩ := hx.perform hb hc (hb' y) (perform_counted hb hc y.call)
  obtain ⟨hry, hsy⟩ := hy.perform hb hc (hb' x) (perform_counted hb hc x.call)
  refine ⟨hrx, hry, ?_⟩
  rcases hsx with ⟨hx, hx'⟩ | ⟨k, a, hk, hx, hx'⟩
  · -- The first call changes nothing, before or after the other one.
    show (first.state.perform y.call).state.Same second'.state
    rw [show first.state = c from hx, show second'.state = first'.state from hx']
    exact .refl _
  · rcases hsy with ⟨hy, hy'⟩ | ⟨m, a', hm, hy, hy'⟩
    · show second.state.Same (first'.state.perform x.call).state
      rw [show first'.state = c from hy, show second.state = first.state from hy']
      exact .refl _
    · exact hx.same hy' hy hx' (hk.voter_eq.trans_ne (hv.trans_eq hm.voter_eq.symm))

/-- Ann and bob vote on a public proposal. Who goes first can be seen in the journals alone. -/
theorem ledgerRun_commute_public :
    let c := Round.start.ledgerRun (Round.steps.take 5)
    let ann : BallotCall := .vote ⟨Round.ann, false⟩ 0 (.bool true) (.int 3)
    let bob : BallotCall := .vote ⟨Round.bob, false⟩ 0 (.bool false) (.int 4)
    let annFirst := (c.perform ann.call).state.perform bob.call
    let bobFirst := (c.perform bob.call).state.perform ann.call
    (∀ s ∈ Round.steps.take 5, s.isUnlock = false) ∧ ann.voter ≠ bob.voter ∧
      annFirst.result.isOk = true ∧ bobFirst.result.isOk = true ∧
      annFirst.state.assembly.journal ≠ bobFirst.state.assembly.journal ∧
      annFirst.state.Same bobFirst.state := by
  intro c ann bob annFirst bobFirst
  have hu : ∀ s ∈ Round.steps.take 5, s.isUnlock = false := by decide
  have hv : ann.voter ≠ bob.voter := by decide
  have hkind : (c.assembly.proposal? 0).map Proposal.kind = some .publicVote := by decide
  have h := ledgerRun_commute .standard .zero Round.symbol Round.opening (Round.steps.take 5) hu
    ann bob hv fun _ z hz => ?_
  · exact ⟨hu, hv, by decide +kernel, by decide +kernel, by decide +kernel, h.2.2⟩
  · have hz' : c.assembly.proposal? 0 = some z := hz
    rw [hz'] at hkind
    exact Option.some.inj hkind

end Chamber

end QuadraticVoting
