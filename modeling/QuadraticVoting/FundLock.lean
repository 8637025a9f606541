import QuadraticVoting.Ledger

/-!
# Fund locks

What voting needs of the host's funds: how much an account can spend, and to lock and unlock part
of it. Nothing is assumed of the answers: a fund lock may answer any amount and may refuse any
call. The balance ledger is one; `HostFunds` is another, which always answers the same amount.
-/

namespace QuadraticVoting

class FundLock (σ : Type) where
  spendable : σ → Account → Int
  lock : σ → Account → Int → Reply σ Unit
  unlock : σ → Account → Int → Reply σ Unit

namespace FundLock

variable {σ : Type} [FundLock σ]

/-- Lock a positive difference, unlock a negative one, and leave the funds alone for none. -/
def adjust (funds : σ) (who : Account) (delta : Int) : Reply σ Unit :=
  if delta > 0 then lock funds who delta
  else if delta < 0 then unlock funds who (-delta)
  else .done funds ()

@[simp] theorem adjust_zero (funds : σ) (who : Account) :
    adjust funds who 0 = .done funds () := rfl

theorem adjust_of_pos (funds : σ) (who : Account) {delta : Int} (h : 0 < delta) :
    adjust funds who delta = lock funds who delta := if_pos h

theorem adjust_of_neg (funds : σ) (who : Account) {delta : Int} (h : delta < 0) :
    adjust funds who delta = unlock funds who (-delta) := by
  unfold adjust
  rw [if_neg (by omega), if_pos h]

end FundLock

section AnyHost

variable [Host]

instance : FundLock Ledger := ⟨Ledger.spendable, Ledger.lock, Ledger.unlock⟩

end AnyHost

inductive FundCall
  | lock (account : Account) (amount : Int)
  | unlock (account : Account) (amount : Int)
deriving DecidableEq

/-- Funds of a host that keeps no balances here: it answers a fixed amount, writes down each call,
and may deny every lock. -/
structure HostFunds where
  amount : Int
  deniesLocks : Bool
  calls : List FundCall := []
deriving DecidableEq, Inhabited

namespace HostFunds

def record (f : HostFunds) (c : FundCall) : HostFunds := { f with calls := f.calls ++ [c] }

variable [Host]

def lock (f : HostFunds) (a : Account) (amount : Int) : Reply HostFunds Unit :=
  let f' := f.record (.lock a amount)
  if f.deniesLocks then .fail f' (.foreign .insufficientFunds "lock denied") else .done f' ()

def unlock (f : HostFunds) (a : Account) (amount : Int) : Reply HostFunds Unit :=
  .done (f.record (.unlock a amount)) ()

instance : FundLock HostFunds := ⟨fun f _ => f.amount, lock, unlock⟩

end HostFunds

end QuadraticVoting
