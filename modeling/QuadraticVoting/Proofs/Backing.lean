import QuadraticVoting.Proofs.Ballots
import QuadraticVoting.Proofs.Orderly
import QuadraticVoting.Proofs.Solvency

/-!
# What backs the ballots

`Chamber.slack` is what a ledger keeps frozen of an account's funds beyond what the account's live
ballots lock. No call and no move of the clock changes it, for any account: a vote moves the frozen
amount by as much as the lock of the ballot, and a claim takes away both. So, when nobody locks or
unlocks on the ledger itself, exactly what the ballots lock is frozen, and what an account can
spend is the rest of what was minted to it.
-/

namespace QuadraticVoting

namespace LedgerStep

def isLock : LedgerStep → Bool
  | lock .. => true
  | step _ | mint .. | unlock .. => false

def isUnlock : LedgerStep → Bool
  | unlock .. => true
  | step _ | mint .. | lock .. => false

end LedgerStep

namespace Assembly

variable {s : Assembly} {spendable : Account → Int} {p : Int} {voter : Account} {aye : Bool}
  {weight : Value} {now : Int} {plan : VotePlan}

/-- A vote changes what the voter's ballots lock by its delta, and nobody else's. -/
theorem Planned.share_write (hp : Planned s spendable p voter aye weight now plan)
    (h : s.Orderly) (a : Account) : (s.write plan).ballotSum (Ballot.shareOf a) =
      s.ballotSum (Ballot.shareOf a) + if a = voter then plan.delta else 0 := by
  have hold : ((s.ballot? p voter).map (Ballot.shareOf a)).getD 0 =
      if a = voter then priorCost plan.prior else 0 := by
    rw [hp.prior_eq]
    cases hb : s.ballot? p voter with
    | none => simp [priorCost]
    | some b =>
      have hv := (h.ballots hb).voter_eq
      simp only [Option.map_some, Option.getD_some, Ballot.shareOf, hv, priorCost]
      exact if_congr eq_comm rfl rfl
  have hnew : (plan.current.map (Ballot.shareOf a)).getD 0 =
      if a = voter then plan.ballot.locked else 0 := by
    unfold VotePlan.current
    split
    · simp only [Option.map_some, Option.getD_some, Ballot.shareOf, hp.ballot_voter]
      exact if_congr eq_comm rfl rfl
    · next hw =>
      -- A ballot of weight 0 locks nothing.
      have h0 : plan.ballot.weight = 0 := by
        have := hp.weight_nonneg
        omega
      simp [Ballot.locked, h0]
  rw [ballotSum_write, hp.ballot_proposal, hp.ballot_voter, hold, hnew, hp.delta_eq]
  split <;> omega

end Assembly

namespace Chamber

/-! ### Regular chambers -/

/-- A chamber whose records and whose ledger are in order. -/
structure Regular (c : Chamber Ledger) : Prop where
  orderly : c.assembly.Orderly
  sound : c.funds.Sound

section AnyHost

variable [Host]

theorem Regular.empty (limits : Limits) (clock : Clock) (symbol : Text)
    (opening : List (Account × Int)) :
    (Chamber.empty limits clock (Ledger.create symbol opening).state).Regular :=
  ⟨.empty limits clock, .create symbol opening⟩

/-- A call adjusts or unlocks the funds of the account that signed it, or leaves them alone. -/
theorem perform_signer_funds {σ : Type} [FundLock σ] {P : σ → Prop} {c : Chamber σ} {call : Call}
    (h : P c.funds)
    (ha : ∀ a d, call.origin.signer = .ok a → P (FundLock.adjust c.funds a d).state)
    (hu : ∀ a n, call.origin.signer = .ok a → P (FundLock.unlock c.funds a n).state) :
    P (c.perform call).state.funds := by
  have hchange : ∀ {c' : Chamber σ} {events : List Event} {notices : List Log.Notice} {a : Answer},
      c.Change call c' events notices a → P c'.funds := by
    intro c' events notices a hc
    cases hc with
    | registered | unregistered | created | cancelled | listed | closed => exact h
    | voted ho hp hf => exact ha _ _ ho
    | claimed ho hb hf => exact hu _ _ ho
  cases c.perform_course call with
  | refused hx hr hs | quiet hq hr hs | muted hq hr hs => rw [hs]; exact h
  | unfunded hf hr hs =>
    rw [hs]
    cases hf with
    | vote ho hp hf => exact ha _ _ ho
    | claim ho hb hf => exact hu _ _ ho
  | done hc hn hr hs =>
    have hp := hchange hc
    rw [hs]
    exact hp
  | untold hc hn hr hs => rw [hs]; exact hchange hc
  | halfway hh hr hs =>
    rw [hs]
    cases hh with
    | vote ho hp hf hn hcl => exact ha _ _ ho

/-- What no adjustment and no unlocking of the funds breaks, no call breaks. -/
theorem perform_funds {σ : Type} [FundLock σ] {P : σ → Prop} {c : Chamber σ} (h : P c.funds)
    (ha : ∀ a d, P (FundLock.adjust c.funds a d).state)
    (hu : ∀ a n, P (FundLock.unlock c.funds a n).state) (call : Call) :
    P (c.perform call).state.funds :=
  perform_signer_funds h (fun a d _ => ha a d) fun a n _ => hu a n

/-- Calls move what is frozen, and no balance. -/
theorem perform_minted (c : Chamber Ledger) (call : Call) :
    (c.perform call).state.funds.balances = c.funds.balances ∧
      (c.perform call).state.funds.issuance = c.funds.issuance := by
  refine perform_funds (P := fun l : Ledger =>
    l.balances = c.funds.balances ∧ l.issuance = c.funds.issuance) ⟨rfl, rfl⟩ ?_ ?_ call
  · exact Ledger.minted_adjust c.funds
  · exact Ledger.minted_unlock c.funds

theorem ledgerStep_regular {c : Chamber Ledger} (h : c.Regular) (s : LedgerStep) :
    (c.ledgerStep s).state.Regular := by
  cases s with
  | step s =>
    refine ⟨step_orderly h.orderly s, ?_⟩
    cases s with
    | call x => exact perform_funds h.sound h.sound.adjust h.sound.unlock x
    | setBlock n => exact h.sound
    | advance n => exact h.sound
  | mint a n => exact ⟨h.orderly, h.sound.mint a n⟩
  | lock a n => exact ⟨h.orderly, h.sound.lock a n⟩
  | unlock a n => exact ⟨h.orderly, h.sound.unlock a n⟩

theorem ledgerRun_regular {c : Chamber Ledger} (h : c.Regular) (steps : List LedgerStep) :
    (c.ledgerRun steps).Regular := by
  induction steps generalizing c with
  | nil => exact h
  | cons s rest ih => exact ih (ledgerStep_regular h s)

end AnyHost

/-! ### Slack -/

/-- What is frozen of an account's funds beyond what its live ballots lock. -/
def slack (c : Chamber Ledger) (a : Account) : Int :=
  c.funds.frozenOf a - power (c.assembly.ballotsOf a)

theorem slack_eq (c : Chamber Ledger) (a : Account) :
    c.slack a = c.funds.frozenOf a - c.assembly.ballotSum (Ballot.shareOf a) := by
  unfold slack
  rw [Assembly.power_ballotsOf]

theorem slack_congr {c c' : Chamber Ledger} (hb : c'.assembly.ballots = c.assembly.ballots)
    (hf : c'.funds = c.funds) (a : Account) : c'.slack a = c.slack a := by
  rw [slack_eq, slack_eq, Assembly.ballotSum_congr hb, hf]

variable {c c' : Chamber Ledger} {call : Call}

section AnyHost

variable [Host]

theorem slack_write {p : Int} {voter : Account} {aye : Bool} {weight : Value} {now : Int}
    {plan : VotePlan} (h : c.assembly.Orderly)
    (hp : c.assembly.Planned (FundLock.spendable c.funds) p voter aye weight now plan)
    (hf : (FundLock.adjust c.funds voter plan.delta).result = .ok ()) (a : Account) :
    slack ⟨c.assembly.write plan, (FundLock.adjust c.funds voter plan.delta).state⟩ a =
      c.slack a := by
  rw [slack_eq, slack_eq, hp.share_write h, Ledger.state_adjust_of_ok hf, Ledger.frozenOf_shift]
  omega

theorem slack_dropBallot {p : Int} {voter : Account} {b : Ballot} (h : c.assembly.Orderly)
    (hb : checkClaim c.assembly voter p = .ok b)
    (hf : (FundLock.unlock c.funds voter b.locked).result = .ok ()) (a : Account) :
    slack ⟨c.assembly.dropBallot p voter, (FundLock.unlock c.funds voter b.locked).state⟩ a =
      c.slack a := by
  have hlive := (checkClaim_eq_ok_iff.1 hb).2.2
  have hv := (h.ballots hlive).voter_eq
  have hs : (FundLock.unlock c.funds voter b.locked).state = c.funds.thaw voter b.locked :=
    (Ledger.state_unlock ..).trans (if_pos (Ledger.unlock_within hf))
  rw [slack_eq, slack_eq, Assembly.ballotSum_dropBallot, hlive, hs, Ledger.frozenOf_thaw]
  simp only [Option.map_some, Option.getD_some, Ballot.shareOf, hv, eq_comm (b := a)]
  omega

theorem Change.slack {events : List Event} {notices : List Log.Notice} {ans : Answer}
    (hc : c.Change call c' events notices ans) (h : c.assembly.Orderly) (a : Account) :
    c'.slack a = c.slack a := by
  cases hc with
  | registered | unregistered | created | cancelled | listed | closed => exact slack_congr rfl rfl a
  | voted ho hp hf =>
    have hw := slack_write h (Assembly.planVote_eq_ok_iff.1 hp) hf a
    refine (slack_congr ?_ ?_ a).trans hw
    · exact Assembly.ballots_carry ..
    · rfl
  | claimed ho hb hf => exact slack_dropBallot h hb hf a

theorem Unfunded.withFunds_eq {f : Fault} {funds : Ledger} (hu : c.Unfunded call f funds)
    (h : c.Regular) : c.withFunds funds = c := by
  cases hu with
  | vote ho hp hf => exact congrArg c.withFunds (h.sound.state_adjust_of_error hf)
  | claim ho hb hf => exact congrArg c.withFunds (h.sound.state_unlock_of_error hf)

theorem slack_perform (h : c.Regular) (call : Call) (a : Account) :
    (c.perform call).state.slack a = c.slack a := by
  cases c.perform_course call with
  | refused hx hr hs | quiet hq hr hs | muted hq hr hs => rw [hs]
  | unfunded hu hr hs => rw [hs, hu.withFunds_eq h]
  | done hc hn hr hs =>
    rw [hs]
    exact (slack_congr rfl rfl a).trans (hc.slack h.orderly a)
  | untold hc hn hr hs =>
    rw [hs]
    exact hc.slack h.orderly a
  | halfway hh hr hs =>
    rw [hs]
    cases hh with
    | vote ho hp hf hn hcl => exact slack_write h.orderly (Assembly.planVote_eq_ok_iff.1 hp) hf a

theorem slack_step (h : c.Regular) (s : Step) (a : Account) :
    (c.step s).state.slack a = c.slack a := by
  cases s with
  | call x => exact slack_perform h x a
  | setBlock n => exact slack_congr rfl rfl a
  | advance n => exact slack_congr rfl rfl a

theorem slack_mint (c : Chamber Ledger) (b : Account) (n : Int) (a : Account) :
    (c.ledgerStep (.mint b n)).state.slack a = c.slack a := by
  show (c.funds.mint b n).state.frozenOf a - _ = c.funds.frozenOf a - _
  rw [Ledger.state_mint]
  split <;> rfl

theorem slack_ledgerStep (h : c.Regular) {s : LedgerStep} (hl : s.isLock = false)
    (hu : s.isUnlock = false) (a : Account) : (c.ledgerStep s).state.slack a = c.slack a := by
  cases s with
  | step s => exact slack_step h s a
  | mint b n => exact slack_mint c b n a
  | lock b n => cases hl
  | unlock b n => cases hu

/-- Locking on the ledger itself can only add to the slack. -/
theorem slack_le_ledgerStep (h : c.Regular) {s : LedgerStep} (hu : s.isUnlock = false)
    (a : Account) : c.slack a ≤ (c.ledgerStep s).state.slack a := by
  cases s with
  | step s => exact Int.le_of_eq (slack_step h s a).symm
  | mint b n => exact Int.le_of_eq (slack_mint c b n a).symm
  | lock b n =>
    show c.funds.frozenOf a - power (c.assembly.ballotsOf a) ≤
      (c.funds.lock b n).state.frozenOf a - power (c.assembly.ballotsOf a)
    rw [Ledger.state_lock]
    split
    · next hc =>
      rw [Ledger.frozenOf_freeze]
      have := hc.1
      split <;> omega
    · exact Int.le_refl _
  | unlock b n => cases hu

theorem slack_ledgerRun (h : c.Regular) {steps : List LedgerStep}
    (hd : ∀ s ∈ steps, s.isLock = false ∧ s.isUnlock = false) (a : Account) :
    (c.ledgerRun steps).slack a = c.slack a := by
  induction steps generalizing c with
  | nil => rfl
  | cons s rest ih =>
    have hs := hd s List.mem_cons_self
    have hrest := ih (ledgerStep_regular h s) fun s' hs' => hd s' (List.mem_cons_of_mem _ hs')
    exact hrest.trans (slack_ledgerStep h hs.1 hs.2 a)

theorem slack_le_ledgerRun (h : c.Regular) {steps : List LedgerStep}
    (hu : ∀ s ∈ steps, s.isUnlock = false) (a : Account) :
    c.slack a ≤ (c.ledgerRun steps).slack a := by
  induction steps generalizing c with
  | nil => exact Int.le_refl _
  | cons s rest ih =>
    have hs := slack_le_ledgerStep h (hu s List.mem_cons_self) a
    have hrest := ih (ledgerStep_regular h s) fun s' hs' => hu s' (List.mem_cons_of_mem _ hs')
    exact Int.le_trans hs hrest

theorem slack_empty (limits : Limits) (clock : Clock) (symbol : Text)
    (opening : List (Account × Int)) (a : Account) :
    (Chamber.empty limits clock (Ledger.create symbol opening).state).slack a = 0 :=
  Int.sub_eq_zero.2 (Ledger.frozenOf_create symbol opening a)

/-! ### Backed chambers -/

/-- A regular chamber in which all that the live ballots lock is frozen. -/
structure Backed (c : Chamber Ledger) : Prop where
  regular : c.Regular
  slack_nonneg : ∀ a, 0 ≤ c.slack a

theorem ledgerStep_backed (h : c.Backed) {s : LedgerStep} (hu : s.isUnlock = false) :
    (c.ledgerStep s).state.Backed :=
  ⟨ledgerStep_regular h.regular s,
    fun a => Int.le_trans (h.slack_nonneg a) (slack_le_ledgerStep h.regular hu a)⟩

theorem ledgerRun_backed (h : c.Backed) {steps : List LedgerStep}
    (hu : ∀ s ∈ steps, s.isUnlock = false) : (c.ledgerRun steps).Backed :=
  ⟨ledgerRun_regular h.regular steps,
    fun a => Int.le_trans (h.slack_nonneg a) (slack_le_ledgerRun h.regular hu a)⟩

end AnyHost

namespace Backed

theorem empty [Host] (limits : Limits) (clock : Clock) (symbol : Text)
    (opening : List (Account × Int)) :
    (Chamber.empty limits clock (Ledger.create symbol opening).state).Backed :=
  ⟨.empty limits clock symbol opening, fun _ => Int.le_of_eq (slack_empty ..).symm⟩

theorem share_le_frozen (h : c.Backed) (a : Account) :
    c.assembly.ballotSum (Ballot.shareOf a) ≤ c.funds.frozenOf a := by
  have hs := h.slack_nonneg a
  rw [slack_eq] at hs
  omega

theorem locked_le_frozen (h : c.Backed) {p : Int} {v : Account} {b : Ballot}
    (hb : c.assembly.ballot? p v = some b) : b.locked ≤ c.funds.frozenOf v := by
  have hnonneg : ∀ b : Ballot, 0 ≤ b.shareOf v := by
    intro b
    unfold Ballot.shareOf
    split
    · exact b.locked_nonneg
    · exact Int.le_refl 0
  have hshare : b.shareOf v = b.locked := if_pos (h.regular.orderly.ballots hb).voter_eq
  have hon : b.shareOf v ≤ c.assembly.sumOn p (Ballot.shareOf v) := Assembly.le_sumOn hnonneg hb
  have hall := c.assembly.sumOn_le_ballotSum p hnonneg
  have hfrozen := h.share_le_frozen v
  omega

theorem ballotSum_le_issuance (h : c.Backed) :
    c.assembly.ballotSum Ballot.locked ≤ c.funds.issuance := by
  have hshares : ∀ a, ((c.assembly.liveBallots.filter fun b => b.voter = a).map Ballot.locked).sum ≤
      c.funds.balanceOf a := by
    intro a
    have hpower : power (c.assembly.ballotsOf a) = c.assembly.ballotSum (Ballot.shareOf a) :=
      Assembly.power_ballotsOf ..
    have hshare := h.share_le_frozen a
    have hcovered := h.regular.sound.covered a
    show power (c.assembly.ballotsOf a) ≤ c.funds.balanceOf a
    omega
  rw [← Assembly.sum_liveBallots, ← h.regular.sound.issued]
  exact OrdMap.sum_le_sumOf (fun b _ => b.locked_nonneg) hshares

theorem unlock_ok [Host] (h : c.Backed) {p : Int} {v : Account} {b : Ballot}
    (hb : c.assembly.ballot? p v = some b) : (c.funds.unlock v b.locked).result = .ok () :=
  h.regular.sound.result_unlock_iff.2 ⟨b.locked_nonneg, h.locked_le_frozen hb⟩

section Vote

variable {p : Int} {voter : Account} {aye : Bool} {weight : Value} {now : Int} {plan : VotePlan}

variable [Host]

/-- A ledger that backs the ballots never refuses what a vote asks of it. -/
theorem adjust_ok (h : c.Backed)
    (hp : c.assembly.Planned (FundLock.spendable c.funds) p voter aye weight now plan) :
    (FundLock.adjust c.funds voter plan.delta).result = .ok () := by
  rcases lt_trichotomy 0 plan.delta with hd | hd | hd
  · rw [FundLock.adjust_of_pos _ _ hd]
    exact h.regular.sound.result_lock_iff.2 ⟨Int.le_of_lt hd, hp.affordable hd⟩
  · rw [← hd]
    rfl
  · rw [FundLock.adjust_of_neg _ _ hd]
    refine h.regular.sound.result_unlock_iff.2 ⟨by omega, ?_⟩
    have hdelta := hp.delta_eq
    have hnew := plan.ballot.locked_nonneg
    have hprior := hp.prior_eq
    cases hb : plan.prior with
    | none =>
      rw [hb] at hdelta
      simp only [Assembly.priorCost] at hdelta
      omega
    | some b =>
      rw [hb] at hdelta hprior
      have hlocked := h.locked_le_frozen hprior.symm
      simp only [Assembly.priorCost] at hdelta
      omega

theorem write (h : c.Backed)
    (hp : c.assembly.Planned (FundLock.spendable c.funds) p voter aye weight now plan) :
    Backed ⟨c.assembly.write plan, (FundLock.adjust c.funds voter plan.delta).state⟩ where
  regular := ⟨h.regular.orderly.write hp, h.regular.sound.adjust voter plan.delta⟩
  slack_nonneg a := by
    rw [slack_write h.regular.orderly hp (h.adjust_ok hp)]
    exact h.slack_nonneg a

theorem sumOn_write_le (h : c.Backed)
    (hp : c.assembly.Planned (FundLock.spendable c.funds) p voter aye weight now plan) :
    (c.assembly.write plan).sumOn p Ballot.locked ≤ c.funds.issuance := by
  have hall := (h.write hp).ballotSum_le_issuance
  rw [(Ledger.minted_adjust ..).2] at hall
  exact Int.le_trans (Assembly.sumOn_le_ballotSum _ p Ballot.locked_nonneg) hall

end Vote

end Backed

/-! ### What was minted -/

section AnyHost

variable [Host]

/-- What a step mints to an account: a mint that is refused mints nothing. -/
def mintedIn (c : Chamber Ledger) (a : Account) : LedgerStep → Int
  | .mint b n => if b = a ∧ (c.funds.mint b n).result.isOk = true then n else 0
  | .step _ | .lock .. | .unlock .. => 0

def mintedTo (a : Account) (c : Chamber Ledger) : List LedgerStep → Int
  | [] => 0
  | s :: rest => c.mintedIn a s + mintedTo a (c.ledgerStep s).state rest

theorem balanceOf_ledgerStep (h : c.Regular) (s : LedgerStep) (a : Account) :
    (c.ledgerStep s).state.funds.balanceOf a = c.funds.balanceOf a + c.mintedIn a s := by
  have hsame : ∀ {l : Ledger}, l.balances = c.funds.balances →
      l.balanceOf a = c.funds.balanceOf a + 0 := by
    intro l hl
    rw [Int.add_zero, Ledger.balanceOf, hl]
    rfl
  cases s with
  | step s =>
    cases s with
    | call x => exact hsame (c.perform_minted x).1
    | setBlock n => exact hsame rfl
    | advance n => exact hsame rfl
  | mint b n =>
    show (c.funds.mint b n).state.balanceOf a = _
    rw [Ledger.state_mint, mintedIn]
    simp only [h.sound.result_mint_iff]
    split
    · next hc =>
      rw [Ledger.balanceOf_credit]
      simp only [hc, and_true, eq_comm (a := b)]
    · next hc =>
      rw [if_neg fun hb => hc hb.2]
      exact (Int.add_zero _).symm
  | lock b n => exact hsame (c.funds.minted_lock b n).1
  | unlock b n => exact hsame (c.funds.minted_unlock b n).1

theorem balanceOf_ledgerRun (h : c.Regular) (steps : List LedgerStep) (a : Account) :
    (c.ledgerRun steps).funds.balanceOf a = c.funds.balanceOf a + mintedTo a c steps := by
  induction steps generalizing c with
  | nil => exact (Int.add_zero _).symm
  | cons s rest ih =>
    have hrest := ih (ledgerStep_regular h s)
    rw [balanceOf_ledgerStep h s a, Int.add_assoc] at hrest
    exact hrest

/-! ### Conservation -/

/-- Without locks and unlocks on the ledger itself, what is frozen of an account's funds is what
its live ballots lock, its balance is what was minted to it, and it can spend the difference. -/
theorem ledgerRun_conserves (limits : Limits) (clock : Clock) (symbol : Text)
    (opening : List (Account × Int)) (steps : List LedgerStep) (a : Account)
    (ho : (Ledger.create symbol opening).result = .ok ())
    (hd : ∀ s ∈ steps, s.isLock = false ∧ s.isUnlock = false) :
    let start := Chamber.empty limits clock (Ledger.create symbol opening).state
    let c := start.ledgerRun steps
    let minted := Ledger.openingOf opening a + mintedTo a start steps
    let locked := power (c.assembly.ballotsOf a)
    c.funds.frozenOf a = locked ∧ c.funds.balanceOf a = minted ∧
      c.funds.spendable a = minted - locked ∧ 0 ≤ c.funds.spendable a := by
  intro start c minted locked
  have hstart : start.Regular := .empty limits clock symbol opening
  have hfrozen : c.funds.frozenOf a = locked := by
    have hs := slack_ledgerRun hstart hd a
    rw [slack_empty limits clock symbol opening a] at hs
    exact Int.sub_eq_zero.1 hs
  have hbalance : c.funds.balanceOf a = minted := by
    have hb := balanceOf_ledgerRun hstart steps a
    have hopen : start.funds.balanceOf a = Ledger.openingOf opening a :=
      Ledger.balanceOf_create ho a
    rwa [hopen] at hb
  refine ⟨hfrozen, hbalance, ?_, (ledgerRun_regular hstart steps).sound.spendable_nonneg a⟩
  unfold Ledger.spendable
  rw [hfrozen, hbalance]

end AnyHost

namespace Round

def ann : Account := .named (.ofChars ['a'])

def bob : Account := .named (.ofChars ['b'])

def symbol : Text := .ofChars ['V']

def opening : List (Account × Int) := [(ann, 10), (bob, 20)]

def start : Chamber Ledger := .empty .standard .zero (Ledger.create symbol opening).state

/-- Two accounts vote on a proposal. One of them lowers its vote, the other claims its funds after
the proposal has been closed. -/
def steps : List LedgerStep := [
  .step (.call (.registerVoter .root ann)),
  .step (.call (.registerVoter .root bob)),
  .step (.call (.createProposal ⟨ann, false⟩ ⟨.bytes [], .kind .publicVote, .none, 1, 101⟩)),
  .mint ann 5,
  .step (.advance 1),
  .step (.call (.vote ⟨ann, false⟩ 0 (.bool true) (.int 3))),
  .step (.call (.vote ⟨bob, false⟩ 0 (.bool false) (.int 4))),
  .step (.call (.vote ⟨ann, false⟩ 0 (.bool true) (.int 2))),
  .step (.advance 101),
  .step (.call (.closeProposal .root 0)),
  .step (.call (.claim ⟨bob, false⟩ 0))]

end Round

theorem ledgerRun_conserves_round :
    (Ledger.create Round.symbol Round.opening).result = .ok () ∧
      (∀ s ∈ Round.steps, s.isLock = false ∧ s.isUnlock = false) ∧
      (Round.start.ledgerRun Round.steps).funds.frozenOf Round.ann = 4 ∧
      (Round.start.ledgerRun Round.steps).funds.balanceOf Round.ann = 15 := by
  have ho : (Ledger.create Round.symbol Round.opening).result = .ok () := by decide
  have hd : ∀ s ∈ Round.steps, s.isLock = false ∧ s.isUnlock = false := by decide
  have h := ledgerRun_conserves .standard .zero Round.symbol Round.opening Round.steps Round.ann
    ho hd
  exact ⟨ho, hd, h.1.trans (by decide), h.2.1.trans (by decide)⟩

end Chamber

end QuadraticVoting
