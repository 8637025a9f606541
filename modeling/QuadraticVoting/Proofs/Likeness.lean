import QuadraticVoting.Proofs.Course

/-!
# Likeness

Two chambers are like each other when every look at them shows the same: limits, clock, members of
the registry, next id, and what their maps hold under each key. The order in which voters and keys
came in may differ, and so may the journals, but for what was written to them since two points that
are given; only the ballots on one proposal stand in the same order. No step tells such chambers
apart: it replies the same, writes the same to the journals, and leaves chambers that are like each
other again (`Chamber.Like.ledgerStep`).

The proof goes along the program. There is a rule for each way to build a reply (`Reply.Like`), a
lemma for each check, which is that it comes to the same, and a lemma for each operation.
-/

namespace QuadraticVoting

/-! ### Lists, maps and replies -/

/-- Two lists have grown by the same. -/
def Grown {α : Type} (old old' new new' : List α) : Prop :=
  ∃ added, new = old ++ added ∧ new' = old' ++ added

namespace Grown

variable {α : Type} {old old' new new' : List α}

theorem refl (old old' : List α) : Grown old old' old old' :=
  ⟨[], (List.append_nil old).symm, (List.append_nil old').symm⟩

theorem append (h : Grown old old' new new') (added : List α) :
    Grown old old' (new ++ added) (new' ++ added) := by
  obtain ⟨before, rfl, rfl⟩ := h
  exact ⟨before ++ added, List.append_assoc .., List.append_assoc ..⟩

theorem drop_eq (h : Grown old old' new new') :
    new'.drop old'.length = new.drop old.length := by
  obtain ⟨added, rfl, rfl⟩ := h
  rw [List.drop_left, List.drop_left]

theorem length_eq (h : Grown old old' new new') (ho : old'.length = old.length) :
    new'.length = new.length := by
  obtain ⟨added, rfl, rfl⟩ := h
  rw [List.length_append, List.length_append, ho]

end Grown

namespace OrdMap

variable {κ ν : Type} [DecidableEq κ] {m m' : OrdMap κ ν}

/-- Maps that hold the same under each key, whatever the order of the keys. -/
def Agrees (m m' : OrdMap κ ν) : Prop := ∀ k, m'.get? k = m.get? k

theorem Agrees.insert (h : m.Agrees m') (k : κ) (v : ν) :
    (m.insert k v).Agrees (m'.insert k v) := by
  intro j
  rw [get?_insert, get?_insert, h j]

theorem Agrees.erase (h : m.Agrees m') (k : κ) : (m.erase k).Agrees (m'.erase k) := by
  intro j
  rw [get?_erase, get?_erase, h j]

end OrdMap

namespace Reply

variable {S T α β : Type} {R : S → S → Prop} {s s' : S} {r r' : Reply S α}

/-- Replies that say the same and leave related states. -/
structure Like (R : S → S → Prop) (r r' : Reply S α) : Prop where
  result_eq : r'.result = r.result
  notices_eq : r'.notices = r.notices
  state : R r.state r'.state

namespace Like

theorem done (h : R s s') (a : α) : Like R (.done s a) (.done s' a) := ⟨rfl, rfl, h⟩

theorem fail [Host] (h : R s s') (f : Fault) : Like R (.fail s f : Reply S α) (.fail s' f) :=
  ⟨rfl, rfl, h⟩

theorem announce [Host] (h : R s s') (n : Log.Notice) (a : α) :
    Like R (.announce s n a) (.announce s' n a) := by
  unfold Reply.announce
  split
  · exact ⟨rfl, rfl, h⟩
  · exact .fail h _

theorem check [Host] {x x' : Except Fault α} {k k' : α → Reply S β} (h : R s s') (hx : x' = x)
    (hk : ∀ a, Like R (k a) (k' a)) : Like R (.check s x k) (.check s' x' k') := by
  subst hx
  cases x' with
  | ok a => exact hk a
  | error f => exact .fail h f

theorem andThen {k k' : S → α → Reply S β} (h : Like R r r')
    (hk : ∀ {t t'} a, R t t' → Like R (k t a) (k' t' a)) :
    Like R (r.andThen k) (r'.andThen k') := by
  have hresult := h.result_eq
  cases hr : r.result with
  | error f =>
    rw [andThen_of_error hr, andThen_of_error (hresult.trans hr)]
    exact ⟨rfl, h.notices_eq, h.state⟩
  | ok a =>
    rw [andThen_of_ok hr, andThen_of_ok (hresult.trans hr)]
    have hnext := hk a h.state
    refine ⟨hnext.result_eq, ?_, hnext.state⟩
    dsimp only
    rw [h.notices_eq, hnext.notices_eq]

theorem within {Q : T → T → Prop} {put put' : S → T} (h : Like R r r')
    (hput : ∀ {t t'}, R t t' → Q (put t) (put' t')) : Like Q (r.within put) (r'.within put') :=
  ⟨h.result_eq, h.notices_eq, hput h.state⟩

theorem map (h : Like R r r') (f : α → β) : Like R (r.map f) (r'.map f) :=
  ⟨congrArg (Except.map f) h.result_eq, h.notices_eq, h.state⟩

end Like

end Reply

/-! ### Registries, clocks and ledgers -/

namespace Registry

/-- Registries with the same members. -/
def Like (r r' : Registry) : Prop := ∀ v, v ∈ r'.voters ↔ v ∈ r.voters

variable {r r' : Registry}

theorem Like.contains_eq (h : r.Like r') (who : Account) : r'.contains who = r.contains who := by
  rw [Bool.eq_iff_iff, contains_iff, contains_iff]
  exact h who

theorem Like.require_eq (h : r.Like r') (who : Account) : r'.require who = r.require who := by
  unfold require
  rw [h.contains_eq]

theorem Like.add (h : r.Like r') (who : Account) : (r.add who).Like (r'.add who) := fun v => by
  rw [mem_add, mem_add, h v]

theorem Like.remove (h : r.Like r') (who : Account) : (r.remove who).Like (r'.remove who) :=
  fun v => by rw [mem_remove, mem_remove, h v]

variable [Host]

theorem Like.register (h : r.Like r') (who : Account) :
    Reply.Like Like (r.register who) (r'.register who) := by
  unfold Registry.register
  rw [h.contains_eq]
  split
  · exact .fail h _
  · split
    · exact ⟨rfl, rfl, h⟩
    · exact ⟨rfl, rfl, h.add who⟩

theorem Like.unregister (h : r.Like r') (who : Account) :
    Reply.Like Like (r.unregister who) (r'.unregister who) :=
  .check h (h.require_eq who) fun _ => ⟨rfl, rfl, h.remove who⟩

end Registry

namespace Ledger

/-- Ledgers that hold the same, and whose journals have grown by the same since they were `old` and
`old'`. -/
structure Like (old old' : List LedgerEvent) (l l' : Ledger) : Prop where
  symbol_eq : l'.symbol = l.symbol
  issuance_eq : l'.issuance = l.issuance
  balances : l.balances.Agrees l'.balances
  frozen : l.frozen.Agrees l'.frozen
  journal : Grown old old' l.journal l'.journal

variable {old old' : List LedgerEvent} {l l' : Ledger}

namespace Like

theorem balanceOf_eq (h : Like old old' l l') (a : Account) : l'.balanceOf a = l.balanceOf a :=
  congrArg (Option.getD · 0) (h.balances a)

theorem frozenOf_eq (h : Like old old' l l') (a : Account) : l'.frozenOf a = l.frozenOf a :=
  congrArg (Option.getD · 0) (h.frozen a)

theorem spendable_eq (h : Like old old' l l') (a : Account) : l'.spendable a = l.spendable a := by
  unfold spendable
  rw [h.balanceOf_eq, h.frozenOf_eq]

variable [Host]

theorem mint (h : Like old old' l l') (a : Account) (n : Int) :
    Reply.Like (Like old old') (l.mint a n) (l'.mint a n) := by
  unfold Ledger.mint
  rw [h.issuance_eq, h.symbol_eq, h.balanceOf_eq]
  split
  · exact .fail h _
  · split
    · exact .fail h _
    · split
      · exact .fail h _
      · exact .announce ⟨rfl, rfl, h.balances.insert _ _, h.frozen, h.journal.append _⟩ _ _

theorem lock (h : Like old old' l l') (a : Account) (n : Int) :
    Reply.Like (Like old old') (l.lock a n) (l'.lock a n) := by
  unfold Ledger.lock
  rw [h.symbol_eq, h.spendable_eq, h.frozenOf_eq]
  split
  · exact .fail h _
  · split
    · exact .fail h _
    · exact .announce
        ⟨rfl, h.issuance_eq, h.balances, h.frozen.insert _ _, h.journal.append _⟩ _ _

theorem unlock (h : Like old old' l l') (a : Account) (n : Int) :
    Reply.Like (Like old old') (l.unlock a n) (l'.unlock a n) := by
  unfold Ledger.unlock
  rw [h.symbol_eq, h.frozenOf_eq]
  split
  · exact .fail h _
  · split
    · exact .fail h _
    · refine .announce ⟨rfl, h.issuance_eq, h.balances, ?_, h.journal.append _⟩ _ _
      dsimp only
      split
      · exact h.frozen.erase _
      · exact h.frozen.insert _ _

theorem adjust (h : Like old old' l l') (a : Account) (delta : Int) :
    Reply.Like (Like old old') (FundLock.adjust l a delta) (FundLock.adjust l' a delta) := by
  unfold FundLock.adjust
  split
  · exact h.lock a delta
  · split
    · exact h.unlock a (-delta)
    · exact .done h ()

end Like

end Ledger

/-! ### Assemblies -/

namespace Assembly

/-- Assemblies that hold the same, and whose journals have grown by the same since they were `old`
and `old'`. -/
structure Like (old old' : List Event) (s s' : Assembly) : Prop where
  limits_eq : s'.limits = s.limits
  clock_eq : s'.clock = s.clock
  registry : s.registry.Like s'.registry
  proposals : s.proposals.Agrees s'.proposals
  nextId_eq : s'.nextId = s.nextId
  ballots : s.ballots.Agrees s'.ballots
  journal : Grown old old' s.journal s'.journal

variable {old old' : List Event} {s s' : Assembly} {p : Int} {v : Account} {now : Int}

namespace Like

theorem now_eq (h : Like old old' s s') : s'.now = s.now := congrArg Clock.block h.clock_eq

theorem requireProposal_eq (h : Like old old' s s') (p : Int) :
    s'.requireProposal p = s.requireProposal p := by
  unfold requireProposal proposal?
  rw [h.proposals p]

theorem ballot?_eq (h : Like old old' s s') (p : Int) (v : Account) :
    s'.ballot? p v = s.ballot? p v := by
  unfold ballot?
  rw [h.ballots p]

/-! #### Checks -/

theorem draftProposal_eq (h : Like old old' s s') (creator : Account) (d : Draft) (now : Int) :
    s'.draftProposal creator d now = s.draftProposal creator d now := by
  unfold draftProposal
  rw [h.registry.require_eq, h.limits_eq, h.nextId_eq]

theorem checkCancel_eq (h : Like old old' s s') (o : Origin) (p now : Int) :
    s'.checkCancel o p now = s.checkCancel o p now := by
  unfold checkCancel
  rw [h.requireProposal_eq]

theorem checkEditor_eq (h : Like old old' s s') (o : Origin) (p : Int) :
    Chamber.checkEditor s' o p = Chamber.checkEditor s o p := by
  unfold Chamber.checkEditor
  rw [h.requireProposal_eq]

theorem checkAccountList_eq (h : Like old old' s s') (x : Proposal) (arg : ListArg) (now : Int) :
    s'.checkAccountList x arg now = s.checkAccountList x arg now := by
  unfold checkAccountList
  rw [h.limits_eq]

theorem checkClose_eq (h : Like old old' s s') (o : Origin) (p now : Int) :
    s'.checkClose o p now = s.checkClose o p now := by
  unfold checkClose
  rw [h.requireProposal_eq]

theorem closingEvents_eq (h : Like old old' s s') (p : Int) :
    Chamber.closingEvents s' p = Chamber.closingEvents s p := by
  funext approved
  unfold Chamber.closingEvents proposal?
  rw [h.proposals p]

theorem planVote_eq (h : Like old old' s s') {spendable spendable' : Account → Int}
    (hspend : spendable' = spendable) (p : Int) (v : Account) (aye : Bool) (weight : Value)
    (now : Int) :
    s'.planVote spendable' p v aye weight now = s.planVote spendable p v aye weight now := by
  unfold planVote requireActive
  rw [h.registry.require_eq, h.requireProposal_eq, h.ballot?_eq, hspend]

theorem checkClaim_eq (h : Like old old' s s') (v : Account) (p : Int) :
    Chamber.checkClaim s' v p = Chamber.checkClaim s v p := by
  unfold Chamber.checkClaim
  rw [h.registry.require_eq, h.requireProposal_eq, h.ballot?_eq]

/-! #### Changes -/

theorem append (h : Like old old' s s') (events : List Event) :
    Like old old' (s.append events) (s'.append events) :=
  { h with journal := h.journal.append events }

theorem putProposal (h : Like old old' s s') (p : Int) (x : Proposal) :
    Like old old' (s.putProposal p x) (s'.putProposal p x) :=
  { h with proposals := h.proposals.insert p x }

theorem putBallot (h : Like old old' s s') (b : Ballot) :
    Like old old' (s.putBallot b) (s'.putBallot b) := by
  unfold Assembly.putBallot
  rw [h.ballots b.proposal]
  exact { h with ballots := h.ballots.insert _ _ }

theorem dropBallot (h : Like old old' s s') (p : Int) (v : Account) :
    Like old old' (s.dropBallot p v) (s'.dropBallot p v) := by
  unfold Assembly.dropBallot
  rw [h.ballots p]
  split
  · exact h
  · refine { h with ballots := ?_ }
    dsimp only
    split
    · exact h.ballots.erase p
    · exact h.ballots.insert p _

variable [Host]

theorem create (h : Like old old' s s') (creator : Account) (d : Draft) (now : Int) :
    Reply.Like (Like old old') (s.create creator d now) (s'.create creator d now) := by
  refine .check h (h.draftProposal_eq creator d now) fun x => .announce ?_ _ x
  exact { h with
    proposals := h.proposals.insert x.id x
    nextId_eq := congrArg (· + 1) h.nextId_eq }

theorem cancel (h : Like old old' s s') (o : Origin) (p now : Int) :
    Reply.Like (Like old old') (s.cancel o p now) (s'.cancel o p now) :=
  .check h (h.checkCancel_eq o p now) fun x =>
    .announce { h with proposals := h.proposals.erase p } _ x

theorem setAccountList (h : Like old old' s s') (p : Int) (x : Proposal) (arg : ListArg)
    (now : Int) :
    Reply.Like (Like old old') (s.setAccountList p x arg now) (s'.setAccountList p x arg now) :=
  .check h (h.checkAccountList_eq x arg now) fun l => .announce (h.putProposal p _) _ l

theorem markClosed (h : Like old old' s s') (p : Int) (x : Proposal) (auto : Bool) :
    Reply.Like (Like old old') (s.markClosed p x auto) (s'.markClosed p x auto) :=
  .announce (h.putProposal p _) _ _

theorem close (h : Like old old' s s') (o : Origin) (p now : Int) :
    Reply.Like (Like old old') (s.close o p now) (s'.close o p now) := by
  refine .check h (h.checkClose_eq o p now) fun x => ?_
  split
  · exact .announce h _ _
  · exact h.markClosed p x false

omit [Host] in
theorem write (h : Like old old' s s') (plan : VotePlan) :
    Like old old' (s.write plan) (s'.write plan) := by
  have hput := h.putProposal plan.ballot.proposal plan.counted
  unfold Assembly.write
  split
  · exact hput.putBallot plan.ballot
  · exact hput.dropBallot plan.ballot.proposal plan.ballot.voter

theorem commitVote (h : Like old old' s s') (plan : VotePlan) :
    Reply.Like (Like old old') (s.commitVote plan) (s'.commitVote plan) := by
  rw [commitVote_eq, commitVote_eq]
  refine Reply.Like.andThen (.announce (h.write plan) plan.notice ()) fun _ ht => ?_
  split
  · exact (ht.markClosed ..).map _
  · exact .done ht _

end Like

end Assembly

/-! ### Chambers -/

namespace Chamber

/-- Chambers that hold the same, and whose journals have grown by the same since they were those of
`o` and `o'`. -/
structure Like (o o' c c' : Chamber Ledger) : Prop where
  assembly : Assembly.Like o.assembly.journal o'.assembly.journal c.assembly c'.assembly
  funds : Ledger.Like o.funds.journal o'.funds.journal c.funds c'.funds

variable {o o' c c' : Chamber Ledger} {α : Type}

namespace Like

/-- Growth is counted anew from here on. -/
theorem restart (h : Like o o' c c') : Like c c' c c' :=
  ⟨{ h.assembly with journal := .refl .. }, { h.funds with journal := .refl .. }⟩

theorem conclude {r r' : Reply (Chamber Ledger) α} (h : Reply.Like (Like o o') r r')
    (call : String) (origin : Origin) (events : α → List Event) :
    Reply.Like (Like o o') (conclude call origin events r) (conclude call origin events r') := by
  unfold Chamber.conclude
  rw [h.result_eq]
  split
  · exact ⟨rfl, h.notices_eq, ⟨h.state.assembly.append _, h.state.funds⟩⟩
  · split
    · exact ⟨rfl, congrArg (· ++ _) h.notices_eq, h.state⟩
    · exact h

theorem onAssembly {r r' : Assembly → Reply Assembly α} (h : Like o o' c c')
    (hr : Reply.Like (Assembly.Like o.assembly.journal o'.assembly.journal) (r c.assembly)
      (r' c'.assembly)) : Reply.Like (Like o o') (c.onAssembly r) (c'.onAssembly r') :=
  hr.within fun ht => ⟨ht, h.funds⟩

theorem onRegistry {r r' : Registry → Reply Registry α} (h : Like o o' c c')
    (hr : Reply.Like Registry.Like (r c.assembly.registry) (r' c'.assembly.registry)) :
    Reply.Like (Like o o') (c.onRegistry r) (c'.onRegistry r') :=
  hr.within fun ht => ⟨{ h.assembly with registry := ht }, h.funds⟩

theorem onFunds {r r' : Ledger → Reply Ledger α} (h : Like o o' c c')
    (hr : Reply.Like (Ledger.Like o.funds.journal o'.funds.journal) (r c.funds) (r' c'.funds)) :
    Reply.Like (Like o o') (c.onFunds r) (c'.onFunds r') :=
  hr.within fun ht => ⟨h.assembly, ht⟩

theorem onClock (h : Like o o' c c') (r : Clock → Reply Clock α) :
    Reply.Like (Like o o') (c.onClock r) (c'.onClock r) := by
  unfold Chamber.onClock
  rw [h.assembly.clock_eq]
  exact ⟨rfl, rfl, ⟨{ h.assembly with clock_eq := rfl }, h.funds⟩⟩

variable [Host]

theorem vote (h : Like o o' c c') (p : Int) (v : Account) (aye : Bool) (weight : Value)
    (now : Int) :
    Reply.Like (Like o o') (c.vote p v aye weight now) (c'.vote p v aye weight now) := by
  have hspend : FundLock.spendable c'.funds = FundLock.spendable c.funds :=
    funext h.funds.spendable_eq
  refine .check h (h.assembly.planVote_eq hspend p v aye weight now) fun plan => ?_
  have hmoved : Reply.Like (Like o o')
      ((FundLock.adjust c.funds v plan.delta).within c.withFunds)
      ((FundLock.adjust c'.funds v plan.delta).within c'.withFunds) :=
    (h.funds.adjust v plan.delta).within fun ht => ⟨h.assembly, ht⟩
  exact hmoved.andThen fun _ ht => (ht.assembly.commitVote plan).within fun hs => ⟨hs, ht.funds⟩

theorem claim (h : Like o o' c c') (v : Account) (p : Int) :
    Reply.Like (Like o o') (c.claim v p) (c'.claim v p) := by
  refine .check h (h.assembly.checkClaim_eq v p) fun b => ?_
  have hmoved : Reply.Like (Like o o') ((c.funds.unlock v b.locked).within c.withFunds)
      ((c'.funds.unlock v b.locked).within c'.withFunds) :=
    (h.funds.unlock v b.locked).within fun ht => ⟨h.assembly, ht⟩
  exact hmoved.andThen fun _ ht => .announce ⟨ht.assembly.dropBallot p v, ht.funds⟩ _ _

theorem perform (h : Like o o' c c') (call : Call) :
    Reply.Like (Like o o') (c.perform call) (c'.perform call) := by
  have hnow := h.assembly.now_eq
  cases call with
  | registerVoter origin who =>
    refine (Like.conclude ?_ ..).map _
    exact .check h rfl fun _ => h.onRegistry (h.assembly.registry.register who)
  | unregisterVoter origin who =>
    refine (Like.conclude ?_ ..).map _
    exact .check h rfl fun _ => h.onRegistry (h.assembly.registry.unregister who)
  | createProposal origin d =>
    refine ((Like.conclude ?_ ..).map _).map _
    refine .check h rfl fun creator => h.onAssembly ?_
    rw [hnow]
    exact h.assembly.create creator d _
  | cancelProposal origin p =>
    refine (Like.conclude (.map (h.onAssembly ?_) _) ..).map _
    rw [hnow]
    exact h.assembly.cancel origin p _
  | setAccountList origin p arg =>
    refine ((Like.conclude ?_ ..).map _).map _
    refine .check h (h.assembly.checkEditor_eq origin p) fun x => h.onAssembly ?_
    rw [hnow]
    exact h.assembly.setAccountList p x arg _
  | vote origin p aye weight =>
    refine (Like.conclude ?_ ..).map _
    refine .check h rfl fun v => ?_
    rw [hnow]
    exact h.vote p v aye.truthy weight _
  | closeProposal origin p =>
    show Reply.Like _ (Reply.map (Chamber.conclude _ _ (closingEvents c.assembly p) _) _)
      (Reply.map (Chamber.conclude _ _ (closingEvents c'.assembly p) _) _)
    rw [h.assembly.closingEvents_eq]
    refine (Like.conclude (h.onAssembly ?_) ..).map _
    rw [hnow]
    exact h.assembly.close origin p _
  | claim origin p =>
    refine ((Like.conclude ?_ ..).map _).map _
    exact .check h rfl fun v => h.claim v p

theorem step (h : Like o o' c c') (s : Step) :
    Reply.Like (Like o o') (c.step s) (c'.step s) := by
  cases s with
  | call x => exact h.perform x
  | setBlock n => exact (h.onClock _).map _
  | advance n => exact (h.onClock _).map _

theorem ledgerStep (h : Like o o' c c') (s : LedgerStep) :
    Reply.Like (Like o o') (c.ledgerStep s) (c'.ledgerStep s) := by
  cases s with
  | step s => exact h.step s
  | mint a n => exact (h.onFunds (h.funds.mint a n)).map _
  | lock a n => exact (h.onFunds (h.funds.lock a n)).map _
  | unlock a n => exact (h.onFunds (h.funds.unlock a n)).map _

end Like

end Chamber

end QuadraticVoting
