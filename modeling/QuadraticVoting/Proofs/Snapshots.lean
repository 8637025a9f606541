import QuadraticVoting.Proofs.Documents
import QuadraticVoting.Proofs.Stranding

/-!
# Snapshots are complete

A host that keeps the documents of a chamber and of its ledger keeps all that later answers depend
on: whatever it asks of two chambers with the same limits and the same documents, they answer the
same, write the same to their journals, and have the same documents again
(`Chamber.transcript_eq_of_snapshot_eq`). What happened before cannot be read off a chamber but from
its journals.

A `Request` is a step of the host or a `Query`; `transcript` is what a host sees of a chamber over
any number of requests.
-/

namespace QuadraticVoting

/-- What a host can ask of a chamber and of its ledger without changing them. The journals are not
among it. -/
inductive Query
  | block
  | isRegistered (who : Account)
  | voters
  | proposal (p : Int)
  | describeProposal (p : Int)
  | stage (p : Int)
  | tally (p : Int)
  | permits (p : Int) (who : Account)
  | ids
  | nextId
  | ballot (p : Int) (voter : Account)
  | hasVoted (p : Int) (voter : Account)
  | ballotsOn (p : Int)
  | voterCount (p : Int)
  | lockedOn (p : Int)
  | snapshot
  | describe
  | describeProposals
  | describeBallots
  | describeRegistry
  | describeClock
  | balance (a : Account)
  | frozen (a : Account)
  | spendable (a : Account)
  | issuance
  | symbol
  | describeLedger
deriving DecidableEq

inductive Request
  | step (s : LedgerStep)
  | query (q : Query)
deriving DecidableEq

/-- What a host sees of a request: how it is answered, the notices that it gives, what it adds to
the two journals, and the documents after it. -/
structure Response where
  result : Except Fault Value
  notices : List Log.Notice
  events : List Event
  entries : List LedgerEvent
  snapshot : Value
  funds : Ledger.Document

namespace Chamber

def ask (c : Chamber Ledger) : Query → Except Fault Value
  | .block => .ok (.int c.assembly.now)
  | .isRegistered who => .ok (.bool (c.assembly.registry.contains who))
  | .voters => .ok c.assembly.registry.toValue
  | .proposal p => .ok (((c.assembly.proposal? p).map Proposal.toValue).getD .null)
  | .describeProposal p => do return .text (← (← c.assembly.requireProposal p).describe)
  | .stage p => do return .text (← c.assembly.stageOf p).name
  | .tally p => do return (← c.assembly.requireProposal p).tally.toValue
  | .permits p who => do return .bool ((← c.assembly.requireProposal p).permits who)
  | .ids => .ok (.list (c.assembly.ids.map .int))
  | .nextId => .ok (.int c.assembly.nextId)
  | .ballot p voter => .ok (VoteOutcome.ballotValue (c.assembly.ballot? p voter))
  | .hasVoted p voter => .ok (.bool (c.assembly.hasVoted p voter))
  | .ballotsOn p => .ok (.list ((c.assembly.ballotsOn p).map Ballot.toValue))
  | .voterCount p => .ok (.int (c.assembly.voterCount p))
  | .lockedOn p => .ok (.int (c.assembly.lockedOn p))
  | .snapshot => .ok c.assembly.toValue
  | .describe => do return .text (← c.assembly.describe)
  | .describeProposals => do return .text (← c.assembly.describeProposals)
  | .describeBallots => .ok (.text c.assembly.describeBallots)
  | .describeRegistry => .ok (.text c.assembly.registry.describe)
  | .describeClock => do return .text (← c.assembly.clock.describe)
  | .balance a => .ok (.int (c.funds.balanceOf a))
  | .frozen a => .ok (.int (c.funds.frozenOf a))
  | .spendable a => .ok (.int (c.funds.spendable a))
  | .issuance => .ok (.int c.funds.issuance)
  | .symbol => .ok (.text c.funds.symbol)
  | .describeLedger => .ok (.text c.funds.describe)

def respond [Host] (c : Chamber Ledger) : Request → Reply (Chamber Ledger) Value
  | .step s => (c.ledgerStep s).map Answer.toValue
  | .query q => .check c (c.ask q) fun v => .done c v

def response [Host] (c : Chamber Ledger) (r : Request) : Response :=
  let reply := c.respond r
  { result := reply.result
    notices := reply.notices
    events := reply.state.assembly.journal.drop c.assembly.journal.length
    entries := reply.state.funds.journal.drop c.funds.journal.length
    snapshot := reply.state.assembly.toValue
    funds := reply.state.funds.document }

/-- The responses to one request after the other. -/
def transcript [Host] (c : Chamber Ledger) : List Request → List Response
  | [] => []
  | r :: rest => c.response r :: transcript (c.respond r).state rest

variable {o o' c c' : Chamber Ledger}

namespace Like

theorem ask_eq (h : Like o o' c c') (hg : c.assembly.Given)
    (hl : o'.assembly.journal.length = o.assembly.journal.length) (q : Query) :
    c'.ask q = c.ask q := by
  obtain ⟨hs, hf⟩ := h
  cases q with
  | block => simp only [ask, hs.now_eq]
  | isRegistered who => simp only [ask, hs.registry.contains_eq]
  | voters => simp only [ask, hs.registry.toValue_eq hg.voters]
  | proposal p => simp only [ask, Assembly.proposal?, hs.proposals p]
  | stage p => simp only [ask, Assembly.stageOf, hs.requireProposal_eq, hs.now_eq]
  | describeProposal p | tally p | permits p who => simp only [ask, hs.requireProposal_eq]
  | ids => simp only [ask, hs.ids_eq]
  | nextId => simp only [ask, hs.nextId_eq]
  | ballot p voter | hasVoted p voter => simp only [ask, Assembly.hasVoted, hs.ballot?_eq]
  | ballotsOn p | voterCount p | lockedOn p =>
    simp only [ask, Assembly.voterCount, Assembly.lockedOn, hs.ballotsOn_eq]
  | snapshot => simp only [ask, hs.toValue_eq hg hl]
  | describe => simp only [ask, hs.describe_eq]
  | describeProposals => simp only [ask, hs.describeProposals_eq]
  | describeBallots => simp only [ask, Assembly.describeBallots, hs.ballots.size_eq]
  | describeRegistry => simp only [ask, hs.registry.describe_eq]
  | describeClock =>
    show (do return Value.text (← c'.assembly.clock.describe)) =
      (do return Value.text (← c.assembly.clock.describe))
    rw [hs.clock_eq]
  | balance a => simp only [ask, hf.balanceOf_eq]
  | frozen a => simp only [ask, hf.frozenOf_eq]
  | spendable a => simp only [ask, hf.spendable_eq]
  | issuance => simp only [ask, hf.issuance_eq]
  | symbol => simp only [ask, hf.symbol_eq]
  | describeLedger => simp only [ask, Ledger.describe, hf.symbol_eq, hf.balances.size_eq]

theorem respond [Host] (h : Like o o' c c') (hg : c.assembly.Given)
    (hl : o'.assembly.journal.length = o.assembly.journal.length) (r : Request) :
    Reply.Like (Like o o') (c.respond r) (c'.respond r) := by
  cases r with
  | step s => exact (h.ledgerStep s).map _
  | query q => exact .check h (h.ask_eq hg hl q) fun v => .done h v

end Like

theorem Later.respond [Host] (c : Chamber Ledger) (r : Request) : c.Later (c.respond r).state := by
  cases r with
  | step s => exact .ledgerStep c s
  | query q =>
    show c.Later (Reply.check c (c.ask q) _).state
    cases c.ask q <;> exact .refl

namespace Like

variable [Host]

theorem response_eq (h : Like c c' c c') (ho : c.assembly.Orderly) (hg : c.assembly.Given)
    (hl : c'.assembly.journal.length = c.assembly.journal.length) (r : Request) :
    c'.response r = c.response r := by
  have hr := h.respond hg hl r
  have hg' : (c.respond r).state.assembly.Given := (Later.respond c r).given ho hg
  unfold response
  simp only [Response.mk.injEq]
  exact ⟨hr.result_eq, hr.notices_eq, hr.state.assembly.journal.drop_eq,
    hr.state.funds.journal.drop_eq, hr.state.assembly.toValue_eq hg' hl,
    hr.state.funds.document_eq⟩

theorem transcript_eq (h : Like c c' c c') (ho : c.assembly.Orderly) (hg : c.assembly.Given)
    (hl : c'.assembly.journal.length = c.assembly.journal.length) (requests : List Request) :
    c'.transcript requests = c.transcript requests := by
  induction requests generalizing c c' with
  | nil => rfl
  | cons r rest ih =>
    have hnext := (h.respond hg hl r).state
    have hlater := Later.respond c r
    have hrest := ih hnext.restart (hlater.orderly ho) (hlater.given ho hg)
      (hnext.assembly.journal.length_eq hl)
    unfold transcript
    rw [h.response_eq ho hg hl, hrest]

end Like

/-- Two chambers with the same limits, each come to in any way, that show the same documents. From
there on they show the same, whatever is asked of them. -/
theorem transcript_eq_of_snapshot_eq [Host] (limits : Limits) (clock clock' : Clock)
    (symbol symbol' : Text) (opening opening' : List (Account × Int))
    (steps steps' : List LedgerStep) (requests : List Request) :
    let c := (Chamber.empty limits clock (Ledger.create symbol opening).state).ledgerRun steps
    let c' := (Chamber.empty limits clock' (Ledger.create symbol' opening').state).ledgerRun steps'
    c'.assembly.toValue = c.assembly.toValue → c'.funds.document = c.funds.document →
      c'.transcript requests = c.transcript requests := by
  intro c c' hsnapshot hfunds
  have hstart : (Assembly.empty limits clock).Orderly := .empty limits clock
  have hstart' : (Assembly.empty limits clock').Orderly := .empty limits clock'
  have hc : Later _ c := Later.ledgerRun _ steps
  have hc' : Later _ c' := Later.ledgerRun _ steps'
  have ho : c.assembly.Orderly := hc.orderly hstart
  have hg : c.assembly.Given := hc.given hstart (.empty limits clock)
  have hlimits : c'.assembly.limits = c.assembly.limits :=
    (hc'.limits_eq hstart').trans (hc.limits_eq hstart).symm
  obtain ⟨hassembly, hlength⟩ :=
    Assembly.like_of_toValue_eq ho (hc'.orderly hstart') hlimits hsnapshot
  exact Like.transcript_eq ⟨hassembly, Ledger.like_of_document_eq hfunds⟩ ho hg hlength requests

/-- Ann and bob register, have their balances opened and vote on two proposals, once in this order
and once the other way round. It can be seen in the journals, and not in what either may do next. -/
theorem transcript_eq_of_snapshot_eq_swapped :
    let register (a : Account) : LedgerStep := .step (.call (.registerVoter .root a))
    let create : LedgerStep := .step (.call (.createProposal ⟨Round.ann, false⟩
      ⟨.bytes [], .kind .publicVote, .none, 1, 101⟩))
    let vote (a : Account) (p : Int) : LedgerStep :=
      .step (.call (.vote ⟨a, false⟩ p (.bool true) (.int 3)))
    let steps := [register Round.ann, register Round.bob, create, create, .step (.advance 1),
      vote Round.ann 0, vote Round.bob 1]
    let steps' := [register Round.bob, register Round.ann, create, create, .step (.advance 1),
      vote Round.bob 1, vote Round.ann 0]
    let c := Round.start.ledgerRun steps
    let c' := (Chamber.empty .standard .zero
      (Ledger.create Round.symbol Round.opening.reverse).state).ledgerRun steps'
    let requests := [.query .voters, .query (.spendable Round.ann),
      .step (.step (.call (.vote ⟨Round.bob, false⟩ 0 (.bool false) (.int 1)))), .query .snapshot]
    c'.assembly.journal ≠ c.assembly.journal ∧ c'.funds.journal ≠ c.funds.journal ∧
      c'.assembly.toValue = c.assembly.toValue ∧ c'.funds.document = c.funds.document ∧
      c'.transcript requests = c.transcript requests := by
  intro register create vote steps steps' c c' requests
  have hlike : Assembly.Like c.assembly.journal c'.assembly.journal c.assembly c'.assembly := by
    refine ⟨by decide, by decide, ?_, ?_, by decide, ?_, .refl ..⟩
    · exact fun v => List.Perm.mem_iff (by decide +kernel)
    · exact OrdMap.agrees_iff_perm.2 (by decide +kernel)
    · exact OrdMap.agrees_iff_perm.2 (by decide +kernel)
  have hgiven : c.assembly.Given :=
    (Later.ledgerRun Round.start steps).given (.empty ..) (.empty ..)
  have hsnapshot : c'.assembly.toValue = c.assembly.toValue := hlike.toValue_eq hgiven (by decide)
  have hfunds : c'.funds.document = c.funds.document := by
    have hbalances : c.funds.balances.Agrees c'.funds.balances :=
      OrdMap.agrees_iff_perm.2 (by decide +kernel)
    have hfrozen : c.funds.frozen.Agrees c'.funds.frozen :=
      OrdMap.agrees_iff_perm.2 (by decide +kernel)
    exact Ledger.Like.document_eq ⟨by decide, by decide, hbalances, hfrozen, .refl ..⟩
  refine ⟨by decide +kernel, by decide +kernel, hsnapshot, hfunds, ?_⟩
  exact transcript_eq_of_snapshot_eq .standard .zero .zero Round.symbol Round.symbol Round.opening
    Round.opening.reverse steps steps' requests hsnapshot hfunds

end Chamber

end QuadraticVoting
