import QuadraticVoting.OrdMap
import QuadraticVoting.Reply

/-!
# The balance ledger

Balances with a frozen part. A frozen amount stays in the balance but cannot be spent again:
`spendable` is the difference. Balances only grow, by minting, and never past `maxBalance` in sum.
Every change is written to the ledger's own journal, from which `Ledger.replay` builds the ledger
again.
-/

namespace QuadraticVoting

inductive LedgerEvent
  | minted (account : Account) (amount : Int)
  | frozen (account : Account) (amount total : Int)
  | thawed (account : Account) (amount total : Int)
deriving DecidableEq

namespace LedgerEvent

def toValue : LedgerEvent → Value
  | minted account amount =>
    .table [("event", .text "Minted"), ("account", account.toValue), ("amount", .int amount)]
  | frozen account amount total =>
    .table [("event", .text "Frozen"), ("account", account.toValue), ("amount", .int amount),
      ("frozenTotal", .int total)]
  | thawed account amount total =>
    .table [("event", .text "Thawed"), ("account", account.toValue), ("amount", .int amount),
      ("frozenTotal", .int total)]

end LedgerEvent

structure Ledger where
  symbol : Text
  balances : OrdMap Account Int
  frozen : OrdMap Account Int
  issuance : Int
  journal : List LedgerEvent
deriving DecidableEq

namespace Ledger

def empty (symbol : Text) : Ledger := ⟨symbol, .empty, .empty, 0, []⟩

instance : Inhabited Ledger := ⟨empty "VOTE"⟩

def balanceOf (l : Ledger) (a : Account) : Int := (l.balances.get? a).getD 0

def frozenOf (l : Ledger) (a : Account) : Int := (l.frozen.get? a).getD 0

def spendable (l : Ledger) (a : Account) : Int := l.balanceOf a - l.frozenOf a

variable [Host]

def mint (l : Ledger) (a : Account) (amount : Int) : Reply Ledger LedgerEvent :=
  if !a.isGiven then .fail l .accountRequired
  else if amount < 0 then .fail l .negativeMint
  else if l.issuance + amount > maxBalance then .fail l (.issuanceExceeded a amount l.symbol)
  else
    let event := .minted a amount
    let l' := { l with
      balances := l.balances.insert a (l.balanceOf a + amount)
      issuance := l.issuance + amount
      journal := l.journal ++ [event] }
    .announce l' (.minted a amount l.symbol) event

def lock (l : Ledger) (a : Account) (amount : Int) : Reply Ledger Unit :=
  if amount < 0 then .fail l .negativeLock
  else if l.spendable a < amount then .fail l (.cannotFreeze a (l.spendable a) amount l.symbol)
  else
    let total := l.frozenOf a + amount
    let l' := { l with
      frozen := l.frozen.insert a total
      journal := l.journal ++ [.frozen a amount total] }
    .announce l' (.locked a amount total l.symbol) ()

def unlock (l : Ledger) (a : Account) (amount : Int) : Reply Ledger Unit :=
  if amount < 0 then .fail l .negativeUnlock
  else if amount > l.frozenOf a then
    .fail l (.thawExceedsFrozen a amount (l.frozenOf a) l.symbol)
  else
    let total := l.frozenOf a - amount
    let l' := { l with
      frozen := if total = 0 then l.frozen.erase a else l.frozen.insert a total
      journal := l.journal ++ [.thawed a amount total] }
    .announce l' (.unlocked a amount total l.symbol) ()

/-- A ledger with opening balances, minted in order; an account named twice opens with its last
amount, in its first place. -/
def create (symbol : Text) (opening : List (Account × Int)) : Reply Ledger Unit :=
  if symbol = "" then .fail (empty symbol) .emptySymbol
  else mintAll (.done (empty symbol) ()) (OrdMap.ofList opening).entries
where
  mintAll (r : Reply Ledger Unit) : List (Account × Int) → Reply Ledger Unit
    | [] => r
    | (a, n) :: rest => mintAll (r.andThen fun l _ => (l.mint a n).map fun _ => ()) rest

/-! ### Reading the journal -/

/-- The effect of one entry of the journal on balances, frozen amounts and issuance. -/
def apply (l : Ledger) : LedgerEvent → Ledger
  | .minted a amount => { l with
      balances := l.balances.insert a (l.balanceOf a + amount)
      issuance := l.issuance + amount }
  | .frozen a amount _ => { l with frozen := l.frozen.insert a (l.frozenOf a + amount) }
  | .thawed a amount _ =>
    let total := l.frozenOf a - amount
    { l with frozen := if total = 0 then l.frozen.erase a else l.frozen.insert a total }

def replay (symbol : Text) (journal : List LedgerEvent) : Ledger :=
  { journal.foldl apply (empty symbol) with journal := journal }

/-! ### Snapshots -/

def amountsValue (m : OrdMap Account Int) : Value :=
  .table (m.entries.map fun e => (e.1.key, .int e.2))

def toValue (l : Ledger) : Value :=
  .table [
    ("symbol", .text l.symbol),
    ("totalIssuance", .int l.issuance),
    ("balances", amountsValue l.balances),
    ("frozen", amountsValue l.frozen)]

def describe (l : Ledger) : Text :=
  "<BalanceLedger " ++ l.symbol ++ s!" accounts={l.balances.size}>"

end Ledger

end QuadraticVoting
