import QuadraticVoting.Proofs.Bookkeeping
import QuadraticVoting.Proofs.Lineage
import QuadraticVoting.Proofs.Stranding

/-!
# Reconciling the two journals

The journal of an assembly and that of its ledger are written apart from each other. From both one
can read the moves of funds (`Event.move?`, `LedgerEvent.move?`): a vote locks or unlocks what its
lock changes by, a withdrawal and a claim unlock. When nobody locks or unlocks on the ledger itself,
both journals tell the same moves in the same order, unless a call moves funds under an id too large
to be written and fails to tell it (`Chamber.Mutes`).

The ledger's journal is never the shorter one: what is told has been moved (`Moves`).
-/

namespace QuadraticVoting

/-! ### Moves -/

namespace FundCall

def amount : FundCall → Int
  | lock _ n | unlock _ n => n

/-- The move that changes what is frozen by a difference, if there is one. -/
def shifting? (a : Account) (d : Int) : Option FundCall :=
  if 0 < d then some (.lock a d) else if d < 0 then some (.unlock a (-d)) else none

theorem shifting?_of_neg (a : Account) {d : Int} (hd : d < 0) :
    shifting? a d = some (.unlock a (-d)) := by
  unfold shifting?
  rw [if_neg (by omega), if_pos hd]

theorem shifting?_eq_none_iff {a : Account} {d : Int} : shifting? a d = none ↔ d = 0 := by
  unfold shifting?
  split
  · simp only [reduceCtorEq, false_iff]
    omega
  · split
    · simp only [reduceCtorEq, false_iff]
      omega
    · simp only [true_iff]
      omega

theorem amount_pos_of_shifting? {a : Account} {d : Int} {m : FundCall}
    (h : shifting? a d = some m) : 0 < m.amount := by
  unfold shifting? at h
  split at h
  · next hd =>
    cases h
    exact hd
  · split at h
    · next hd =>
      cases h
      exact Int.neg_pos_of_neg hd
    · cases h

end FundCall

/-- The move of funds that an event of the assembly tells. -/
def Event.move? : Event → Option FundCall
  | voteCast b delta => FundCall.shifting? b.voter delta
  | voteWithdrawn _ v released => some (.unlock v released)
  | fundsClaimed _ v amount => some (.unlock v amount)
  | voterRegistered _ | voterUnregistered _ | proposalCreated .. | proposalCancelled _
  | accountListSet .. | proposalClosed .. => none

/-- The move of funds that an entry of the ledger tells. -/
def LedgerEvent.move? : LedgerEvent → Option FundCall
  | minted .. => none
  | frozen a n _ => some (.lock a n)
  | thawed a n _ => some (.unlock a n)

namespace Ledger

def moves (l : Ledger) : List FundCall := l.journal.filterMap LedgerEvent.move?

theorem moves_enter (l : Ledger) (e : LedgerEvent) :
    (l.enter e).moves = l.moves ++ e.move?.toList := by
  show (l.journal ++ [e]).filterMap LedgerEvent.move? = _
  rw [List.filterMap_append]
  cases e <;> rfl

theorem moves_mint [Host] (l : Ledger) (a : Account) (n : Int) :
    (l.mint a n).state.moves = l.moves := by
  rw [state_mint]
  split
  · rw [credit_eq_enter, moves_enter]
    exact List.append_nil _
  · rfl

theorem moves_create [Host] (symbol : Text) (opening : List (Account × Int)) :
    (create symbol opening).state.moves = [] := by
  unfold create
  split
  · rfl
  · exact mintAll_keeps (P := fun l => l.moves = []) (fun l a n h => (l.moves_mint a n).trans h)
      rfl _

theorem moves_shift (l : Ledger) (a : Account) (d : Int) :
    (l.shift a d).moves = l.moves ++ (FundCall.shifting? a d).toList := by
  unfold shift FundCall.shifting?
  split
  · rw [freeze_eq_enter, moves_enter]
    rfl
  · split
    · rw [thaw_eq_enter, moves_enter]
      rfl
    · exact (List.append_nil _).symm

end Ledger

def Assembly.moves (s : Assembly) : List FundCall := s.journal.filterMap Event.move?

theorem Assembly.moves_append (s : Assembly) (events : List Event) :
    (s.append events).moves = s.moves ++ events.filterMap Event.move? :=
  List.filterMap_append ..

theorem VotePlan.moves_closingEvents (plan : VotePlan) :
    plan.closingEvents.filterMap Event.move? = [] := by
  refine List.filterMap_eq_nil_iff.2 fun e he => ?_
  rw [(mem_closingEvents_iff.1 he).2]
  rfl

theorem VotePlan.moves_events (plan : VotePlan) :
    (Chamber.voteEvents plan.outcome).filterMap Event.move? = plan.event.move?.toList := by
  rw [voteEvents_outcome, List.filterMap_cons, moves_closingEvents]
  cases plan.event.move? <;> rfl

theorem Ballot.Filed.locked_pos {b : Ballot} {p : Int} {v : Account} {next : Int}
    (h : b.Filed p v next) : 0 < b.locked :=
  Int.mul_pos h.weight_pos h.weight_pos

theorem Assembly.Planned.move?_event {s : Assembly} {spendable : Account → Int} {p : Int}
    {voter : Account} {aye : Bool} {weight : Value} {now : Int} {plan : VotePlan}
    (hp : Planned s spendable p voter aye weight now plan) (h : s.Orderly) :
    plan.event.move? = FundCall.shifting? voter plan.delta := by
  unfold VotePlan.event
  split
  · exact congrArg (FundCall.shifting? · plan.delta) hp.ballot_voter
  · next hw =>
    -- A ballot of weight 0 replaces one that locks something.
    have h0 : plan.ballot.weight = 0 := by
      have := hp.weight_nonneg
      omega
    obtain ⟨b, hb⟩ : ∃ b, plan.prior = some b :=
      Option.ne_none_iff_exists'.1 fun hnone => (requireChange_eq_ok_iff.1 hp.changes).1 hnone h0
    have hlocked := (h.ballots (hp.prior_eq.symm.trans hb)).locked_pos
    have hdelta : plan.delta = -b.locked := by
      rw [hp.delta_eq, hb]
      simp [Ballot.locked, h0, priorCost]
    rw [hdelta, FundCall.shifting?_of_neg _ (by omega), hb, Int.neg_neg, hp.ballot_voter]
    rfl

namespace Chamber

variable {c c' : Chamber Ledger} {call : Call} {events : List Event}
  {notices : List Log.Notice} {a : Answer}

/-! ### One call -/

section AnyHost

variable [Host]

theorem state_unlock_of_claim (h : c.assembly.Orderly) {p : Int} {voter : Account} {b : Ballot}
    (hb : checkClaim c.assembly voter p = .ok b)
    (hf : (FundLock.unlock c.funds voter b.locked).result = .ok ()) :
    0 < b.locked ∧
      (FundLock.unlock c.funds voter b.locked).state = c.funds.shift voter (-b.locked) := by
  have hlocked := (h.ballots (checkClaim_eq_ok_iff.1 hb).2.2).locked_pos
  refine ⟨hlocked, (Ledger.state_unlock ..).trans ((if_pos (Ledger.unlock_within hf)).trans ?_)⟩
  unfold Ledger.shift
  rw [if_neg (by omega), if_pos (by omega), Int.neg_neg]

/-- The events of a change tell the moves that it makes. -/
theorem Change.moves (hc : c.Change call c' events notices a) (h : c.assembly.Orderly) :
    c'.funds.moves = c.funds.moves ++ events.filterMap Event.move? := by
  cases hc with
  | registered | unregistered | created | cancelled | listed | closed =>
    exact (List.append_nil _).symm
  | @voted o p aye weight voter plan ho hp hf =>
    have hplan := Assembly.planVote_eq_ok_iff.1 hp
    show (FundLock.adjust c.funds voter plan.delta).state.moves = _
    rw [Ledger.state_adjust_of_ok hf, Ledger.moves_shift, plan.moves_events, hplan.move?_event h]
  | @claimed o p voter b ho hb hf =>
    obtain ⟨hlocked, hs⟩ := state_unlock_of_claim h hb hf
    show (FundLock.unlock c.funds voter b.locked).state.moves = _
    rw [hs, Ledger.moves_shift, FundCall.shifting?_of_neg _ (by omega), Int.neg_neg,
      (Origin.signer_eq_ok_iff.1 ho).2.1]
    rfl

theorem Change.move_pos (hc : c.Change call c' events notices a) (h : c.assembly.Orderly) :
    ∀ m ∈ events.filterMap Event.move?, 0 < m.amount := by
  intro m hm
  cases hc with
  | registered | unregistered | created | cancelled | listed | closed => cases hm
  | @voted o p aye weight voter plan ho hp hf =>
    have hplan := Assembly.planVote_eq_ok_iff.1 hp
    rw [plan.moves_events, hplan.move?_event h, Option.mem_toList] at hm
    exact FundCall.amount_pos_of_shifting? hm
  | claimed ho hb hf =>
    obtain rfl := List.mem_singleton.1 hm
    exact (state_unlock_of_claim h hb hf).1

/-- A change whose events tell no move leaves the funds as they were. -/
theorem Change.funds_eq_iff (hc : c.Change call c' events notices a) (h : c.assembly.Orderly) :
    c'.funds = c.funds ↔ events.filterMap Event.move? = [] := by
  constructor
  · intro he
    have hmoves := hc.moves h
    rw [he] at hmoves
    exact List.self_eq_append_right.1 hmoves
  · intro hnone
    cases hc with
    | registered | unregistered | created | cancelled | listed | closed => rfl
    | @voted o p aye weight voter plan ho hp hf =>
      have hplan := Assembly.planVote_eq_ok_iff.1 hp
      rw [plan.moves_events, hplan.move?_event h, Option.toList_eq_nil_iff,
        FundCall.shifting?_eq_none_iff] at hnone
      show (FundLock.adjust c.funds voter plan.delta).state = c.funds
      rw [hnone]
      rfl
    | claimed ho hb hf => cases hnone

/-- A call that moves funds under an id too large to be written: it cannot tell its change. -/
def Mutes (c : Chamber Ledger) (call : Call) : Prop :=
  ∃ c' events notices a, c.Change call c' events notices a ∧ c'.funds ≠ c.funds ∧
    ¬ ∀ k ∈ c.numbers call, Value.isWritable k = true

theorem Change.mutes_iff (hc : c.Change call c' events notices a) (h : c.assembly.Orderly) :
    c.Mutes call ↔ events.filterMap Event.move? ≠ [] ∧ ¬ ∀ n ∈ notices, n.Writable := by
  rw [ne_eq, ← hc.funds_eq_iff h, hc.writable_iff h]
  constructor
  · rintro ⟨d, _, _, _, hd, hne, hn⟩
    exact ⟨(hc.unique hd).1 ▸ hne, hn⟩
  · rintro ⟨hne, hn⟩
    exact ⟨c', events, notices, a, hc, hne, hn⟩

end AnyHost

/-- What is moved and what is told on the way from one chamber to another. Nothing is told that was
not moved, and everything is told if no call on the way is mute. -/
structure Moves (c c' : Chamber Ledger) (mute : Prop) (moved told : List FundCall) : Prop where
  funds : c'.funds.moves = c.funds.moves ++ moved
  journal : c'.assembly.moves = c.assembly.moves ++ told
  positive : ∀ m ∈ moved, 0 < m.amount
  sublist : told.Sublist moved
  told_eq_iff : told = moved ↔ ¬ mute

theorem Moves.idle {mute : Prop} (hf : c'.funds.moves = c.funds.moves)
    (hj : c'.assembly.moves = c.assembly.moves) (hm : ¬ mute) : c.Moves c' mute [] [] where
  funds := hf.trans (List.append_nil _).symm
  journal := hj.trans (List.append_nil _).symm
  positive := List.forall_mem_nil _
  sublist := .refl _
  told_eq_iff := ⟨fun _ => hm, fun _ => rfl⟩

theorem Moves.trans {c'' : Chamber Ledger} {mute mute' : Prop}
    {moved told moved' told' : List FundCall} (h : c.Moves c' mute moved told)
    (h' : c'.Moves c'' mute' moved' told') :
    c.Moves c'' (mute ∨ mute') (moved ++ moved') (told ++ told') where
  funds := by rw [h'.funds, h.funds, List.append_assoc]
  journal := by rw [h'.journal, h.journal, List.append_assoc]
  positive := List.forall_mem_append.2 ⟨h.positive, h'.positive⟩
  sublist := h.sublist.append h'.sublist
  told_eq_iff := by
    rw [not_or, ← h.told_eq_iff, ← h'.told_eq_iff]
    constructor
    · intro he
      -- Neither part is longer than what was moved, so both are as long.
      have hlength := congrArg List.length he
      have hle := h.sublist.length_le
      have hle' := h'.sublist.length_le
      rw [List.length_append, List.length_append] at hlength
      exact ⟨h.sublist.eq_of_length (by omega), h'.sublist.eq_of_length (by omega)⟩
    · rintro ⟨rfl, rfl⟩
      rfl

section AnyHost

variable [Host]

theorem Change.moves_untold {d : Chamber Ledger} (hc : c.Change call d events notices a)
    (h : c.assembly.Orderly) (hn : ¬ ∀ n ∈ notices, n.Writable) (hf : c'.funds = d.funds)
    (hj : c'.assembly.journal = c.assembly.journal) :
    c.Moves c' (c.Mutes call) (events.filterMap Event.move?) [] where
  funds := (congrArg Ledger.moves hf).trans (hc.moves h)
  journal := (congrArg (·.filterMap Event.move?) hj).trans (List.append_nil _).symm
  positive := hc.move_pos h
  sublist := List.nil_sublist _
  told_eq_iff := by
    rw [hc.mutes_iff h]
    exact ⟨fun he hm => hm.1 he.symm, fun hm => by_contra fun hne => hm ⟨Ne.symm hne, hn⟩⟩

theorem perform_moves (h : c.Regular) (call : Call) :
    ∃ moved told, c.Moves (c.perform call).state (c.Mutes call) moved told := by
  cases c.perform_course call with
  | refused hx hr hs =>
    rw [hs]
    refine ⟨[], [], .idle rfl rfl fun ⟨_, _, _, _, hc, _⟩ => ?_⟩
    cases hx.symm.trans hc.checks_eq_ok
  | quiet hq hr hs | muted hq hr hs =>
    rw [hs]
    exact ⟨[], [], .idle rfl rfl fun ⟨_, _, _, _, hc, _⟩ => hc.not_quiet hq⟩
  | unfunded hu hr hs =>
    rw [hs, hu.withFunds_eq h]
    exact ⟨[], [], .idle rfl rfl fun ⟨_, _, _, _, hc, _⟩ => hc.not_unfunded hu⟩
  | @done c' events notices a hc hn hr hs =>
    rw [hs]
    refine ⟨_, _, hc.moves h.orderly, ?_, hc.move_pos h.orderly, .refl _, ?_⟩
    · exact (c'.assembly.moves_append events).trans
        (congrArg (·.filterMap Event.move? ++ _) hc.journal)
    · exact ⟨fun _ hm => ((hc.mutes_iff h.orderly).1 hm).2 hn, fun _ => rfl⟩
  | untold hc hn hr hs =>
    rw [hs]
    exact ⟨_, _, hc.moves_untold h.orderly hn rfl hc.journal⟩
  | halfway hh hr hs =>
    rw [hs]
    obtain ⟨d, _, _, _, hc, hn, hf, -⟩ := hh.exists_change
    exact ⟨_, _, hc.moves_untold h.orderly hn hf hh.journal⟩

theorem perform_journal_of_error {f : Fault} (hf : (c.perform call).result = .error f) :
    (c.perform call).state.assembly.journal = c.assembly.journal := by
  cases c.perform_course call with
  | refused hx hr hs | muted hq hr hs => rw [hs]
  | unfunded hu hr hs =>
    rw [hs]
    rfl
  | quiet hq hr hs | done hc hn hr hs => cases hr.symm.trans hf
  | untold hc hn hr hs =>
    rw [hs]
    exact hc.journal
  | halfway hh hr hs =>
    rw [hs]
    exact hh.journal

/-- A call that fails moves nothing, unless it is mute. -/
theorem perform_funds_of_error (h : c.Regular) {f : Fault}
    (hf : (c.perform call).result = .error f) (hm : ¬ c.Mutes call) :
    (c.perform call).state.funds = c.funds := by
  cases c.perform_course call with
  | refused hx hr hs | muted hq hr hs => rw [hs]
  | unfunded hu hr hs => rw [hs, hu.withFunds_eq h]
  | quiet hq hr hs | done hc hn hr hs => cases hr.symm.trans hf
  | untold hc hn hr hs =>
    rw [hs]
    by_contra hne
    exact hm ⟨_, _, _, _, hc, hne, (hc.writable_iff h.orderly).not.1 hn⟩
  | halfway hh hr hs =>
    rw [hs]
    obtain ⟨d, _, _, _, hc, hn, hd, -⟩ := hh.exists_change
    by_contra hne
    exact hm ⟨_, _, _, _, hc, hd ▸ hne, (hc.writable_iff h.orderly).not.1 hn⟩

/-- Only an id that has been handed out after the first `Value.writtenBound` is too large. -/
theorem Mutes.writtenBound_lt (hm : c.Mutes call) (h : c.assembly.Orderly)
    (hn : c.assembly.Numbered) : Value.writtenBound < c.assembly.nextId := by
  obtain ⟨d, events, notices, a, hc, hne, hnot⟩ := hm
  by_contra hle
  refine hnot fun k hk => ?_
  cases hp : call.proposal? with
  | none =>
    cases hc with
    | registered | unregistered | created => exact absurd rfl hne
    | cancelled | listed | closed | voted | claimed => cases hp
  | some p =>
    rw [numbers_of_proposal? hp, List.mem_singleton] at hk
    obtain ⟨x, hx⟩ := hc.exists_proposal hp
    rw [hk]
    exact hn.isWritable h (Int.not_lt.1 hle) hx

/-! ### Runs -/

/-- Whether a call of a run moves funds that it cannot tell of. -/
def MutesIn (c : Chamber Ledger) : List LedgerStep → Prop
  | [] => False
  | s :: rest => (∃ call, s = .step (.call call) ∧ c.Mutes call) ∨
    MutesIn (c.ledgerStep s).state rest

theorem ledgerStep_moves (h : c.Regular) {s : LedgerStep} (hl : s.isLock = false)
    (hu : s.isUnlock = false) : ∃ moved told, c.Moves (c.ledgerStep s).state
      (∃ call, s = .step (.call call) ∧ c.Mutes call) moved told := by
  cases s with
  | step s =>
    cases s with
    | call x =>
      obtain ⟨moved, told, hx⟩ := perform_moves h x
      refine ⟨moved, told, { hx with told_eq_iff := hx.told_eq_iff.trans (not_congr ?_) }⟩
      exact ⟨fun hm => ⟨x, rfl, hm⟩, fun ⟨_, e, hm⟩ => by cases e; exact hm⟩
    | setBlock n => exact ⟨[], [], .idle rfl rfl nofun⟩
    | advance n => exact ⟨[], [], .idle rfl rfl nofun⟩
  | mint b n => exact ⟨[], [], .idle (c.funds.moves_mint b n) rfl nofun⟩
  | lock b n => cases hl
  | unlock b n => cases hu

theorem ledgerRun_moves (h : c.Regular) {steps : List LedgerStep}
    (hd : ∀ s ∈ steps, s.isLock = false ∧ s.isUnlock = false) :
    ∃ moved told, c.Moves (c.ledgerRun steps) (c.MutesIn steps) moved told := by
  induction steps generalizing c with
  | nil => exact ⟨[], [], .idle rfl rfl id⟩
  | cons s rest ih =>
    have hs := hd s List.mem_cons_self
    obtain ⟨moved, told, hstep⟩ := ledgerStep_moves h hs.1 hs.2
    obtain ⟨moved', told', hrest⟩ := ih (ledgerStep_regular h s)
      fun s' hs' => hd s' (List.mem_cons_of_mem _ hs')
    exact ⟨_, _, hstep.trans hrest⟩

theorem MutesIn.writtenBound_lt {steps : List LedgerStep} (hm : c.MutesIn steps)
    (h : c.assembly.Orderly) (hn : c.assembly.Numbered) :
    Value.writtenBound < (c.ledgerRun steps).assembly.nextId := by
  induction steps generalizing c with
  | nil => cases hm
  | cons s rest ih =>
    have hlater := Later.ledgerStep c s
    rcases hm with ⟨call, -, hcall⟩ | hm
    · have hrun := (Later.ledgerRun c (s :: rest)).nextId_le h
      exact Int.lt_of_lt_of_le (hcall.writtenBound_lt h hn) hrun
    · exact ih hm (hlater.orderly h) (hlater.numbered h hn)

/-! ### What the ledger writes -/

theorem ledgerStep_serves (c : Chamber Ledger) (s : LedgerStep) :
    (c.ledgerStep s).state.funds = c.funds ∨
      ∃ r, (c.ledgerStep s).state.funds = (c.funds.serve r).state := by
  cases s with
  | step s =>
    cases s with
    | call x =>
      refine perform_funds (P := fun l => l = c.funds ∨ ∃ r, l = (c.funds.serve r).state) (.inl rfl)
        (fun a d => ?_) (fun a n => .inr ⟨.unlock a n, rfl⟩) x
      rcases lt_trichotomy 0 d with hd | hd | hd
      · rw [FundLock.adjust_of_pos _ _ hd]
        exact .inr ⟨.lock a d, rfl⟩
      · exact .inl (hd ▸ rfl)
      · rw [FundLock.adjust_of_neg _ _ hd]
        exact .inr ⟨.unlock a (-d), rfl⟩
    | setBlock n => exact .inl rfl
    | advance n => exact .inl rfl
  | mint a n => exact .inr ⟨.mint a n, rfl⟩
  | lock a n => exact .inr ⟨.lock a n, rfl⟩
  | unlock a n => exact .inr ⟨.unlock a n, rfl⟩

/-- A step leaves the ledger as it is, or it leads to an entry. -/
theorem ledgerStep_enters (h : c.Regular) (s : LedgerStep) :
    (c.ledgerStep s).state.funds = c.funds ∨
      ∃ r e, c.funds.Entry r e ∧ (c.ledgerStep s).state.funds = c.funds.enter e := by
  rcases c.ledgerStep_serves s with hs | ⟨r, hs⟩
  · exact .inl hs
  · rcases h.sound.serve_cases r with ⟨f, -, hr⟩ | ⟨e, he, -, hr⟩
    · exact .inl (hs.trans hr)
    · exact .inr ⟨r, e, he, hs.trans hr⟩

/-- The total that a step's entry tells is what is frozen once the step is done. -/
theorem ledgerStep_entry (h : c.Regular) (s : LedgerStep) :
    ∃ entry : Option LedgerEvent,
      (c.ledgerStep s).state.funds.journal = c.funds.journal ++ entry.toList ∧
        ∀ e ∈ entry, ∀ t, e.total? = some t →
          t = (c.ledgerStep s).state.funds.frozenOf e.account := by
  rcases ledgerStep_enters h s with hs | ⟨r, e, he, hs⟩
  · exact ⟨none, hs ▸ (List.append_nil _).symm, nofun⟩
  · rw [hs]
    refine ⟨some e, rfl, fun e' he' t ht => ?_⟩
    cases he'
    exact he.total_eq ht

/-- In every run in which nobody locks or unlocks on the ledger itself, the two journals tell the
same moves in the same order, unless a call moves funds under an id too large to be written, of
which there is none among the first `Value.writtenBound`. All moves are of positive amounts. A call
that fails tells nothing and moves nothing. Each step leads to one entry of the ledger at most, and
the frozen total in it is what the live ballots of its account then lock. -/
theorem ledgerRun_reconciled (limits : Limits) (clock : Clock) (symbol : Text)
    (opening : List (Account × Int)) (steps : List LedgerStep)
    (hd : ∀ s ∈ steps, s.isLock = false ∧ s.isUnlock = false) :
    let start := Chamber.empty limits clock (Ledger.create symbol opening).state
    let c := start.ledgerRun steps
    (c.assembly.moves = c.funds.moves ↔ ¬ start.MutesIn steps) ∧
      (c.assembly.nextId ≤ Value.writtenBound → ¬ start.MutesIn steps) ∧
      (∀ m ∈ c.funds.moves, 0 < m.amount) ∧
      (∀ call f, (c.perform call).result = .error f →
        (c.perform call).state.assembly.journal = c.assembly.journal ∧
          (¬ c.Mutes call → (c.perform call).state.funds = c.funds)) ∧
      ∀ s, s.isLock = false → s.isUnlock = false → ∃ entry : Option LedgerEvent,
        (c.ledgerStep s).state.funds.journal = c.funds.journal ++ entry.toList ∧
          ∀ e ∈ entry, ∀ t, e.total? = some t →
            t = power ((c.ledgerStep s).state.assembly.ballotsOf e.account) := by
  intro start c
  have hstart : start.Regular := .empty limits clock symbol opening
  have h : c.Regular := ledgerRun_regular hstart steps
  obtain ⟨moved, told, hmoves⟩ := ledgerRun_moves hstart hd
  have hfunds : c.funds.moves = moved :=
    hmoves.funds.trans (congrArg (· ++ moved) (Ledger.moves_create symbol opening))
  have hjournal : c.assembly.moves = told := hmoves.journal
  rw [hfunds, hjournal]
  refine ⟨hmoves.told_eq_iff, fun hn hm => ?_, hmoves.positive, fun call f hf =>
    ⟨perform_journal_of_error hf, perform_funds_of_error h hf⟩, fun s hl hu => ?_⟩
  · have := hm.writtenBound_lt hstart.orderly (.empty limits clock)
    exact absurd hn (Int.not_le.2 this)
  · obtain ⟨entry, hentry, htotal⟩ := ledgerStep_entry h s
    refine ⟨entry, hentry, fun e he t ht => (htotal e he t ht).trans ?_⟩
    -- Nothing is frozen beyond what the ballots lock, neither before the step nor after it.
    have hslack := (slack_ledgerStep h hl hu e.account).trans
      ((slack_ledgerRun hstart hd e.account).trans (slack_empty limits clock symbol opening _))
    exact Int.sub_eq_zero.1 hslack

end AnyHost

/-- Of two votes at the same weight, one for and one against, the second moves nothing. A higher
one locks the difference, a lower one, a withdrawal and a claim unlock. -/
theorem ledgerRun_reconciled_flip :
    let steps : List LedgerStep := [
      .step (.call (.registerVoter .root Round.ann)),
      .step (.call (.registerVoter .root Round.bob)),
      .step (.call (.createProposal ⟨Round.ann, false⟩
        ⟨.bytes [], .kind .publicVote, .none, 1, 101⟩)),
      .step (.advance 1),
      .step (.call (.vote ⟨Round.ann, false⟩ 0 (.bool true) (.int 2))),
      .step (.call (.vote ⟨Round.ann, false⟩ 0 (.bool false) (.int 2))),
      .step (.call (.vote ⟨Round.ann, false⟩ 0 (.bool false) (.int 3))),
      .step (.call (.vote ⟨Round.bob, false⟩ 0 (.bool true) (.int 4))),
      .step (.call (.vote ⟨Round.ann, false⟩ 0 (.bool false) (.int 1))),
      .step (.call (.vote ⟨Round.bob, false⟩ 0 (.bool true) (.int 0))),
      .mint Round.ann 5,
      .step (.advance 101),
      .step (.call (.closeProposal .root 0)),
      .step (.call (.claim ⟨Round.ann, false⟩ 0))]
    let c := Round.start.ledgerRun steps
    (∀ s ∈ steps, s.isLock = false ∧ s.isUnlock = false) ∧ c.assembly.moves = c.funds.moves ∧
      c.funds.moves = [.lock Round.ann 4, .lock Round.ann 5, .lock Round.bob 16,
        .unlock Round.ann 8, .unlock Round.bob 16, .unlock Round.ann 1] := by
  intro steps c
  have hd : ∀ s ∈ steps, s.isLock = false ∧ s.isUnlock = false := by decide
  have h := ledgerRun_reconciled .standard .zero Round.symbol Round.opening steps hd
  exact ⟨hd, h.1.2 (h.2.1 (by decide)), by decide⟩

end Chamber

end QuadraticVoting
