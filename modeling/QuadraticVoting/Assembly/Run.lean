import QuadraticVoting.Assembly.Call

/-!
# Runs

What a host can do to a chamber: make a call or move the clock, and, when a balance ledger holds
the funds, mint, lock and unlock on the ledger itself. A run is a list of such steps; the state it
leads to does not depend on whether a step was refused.
-/

namespace QuadraticVoting

inductive Step
  | call (c : Call)
  | setBlock (n : Int)
  | advance (n : Int)
deriving DecidableEq

inductive LedgerStep
  | step (s : Step)
  | mint (account : Account) (amount : Int)
  | lock (account : Account) (amount : Int)
  | unlock (account : Account) (amount : Int)
deriving DecidableEq

namespace Chamber

variable {σ : Type}

def onClock {α : Type} (c : Chamber σ) (r : Clock → Reply Clock α) : Reply (Chamber σ) α :=
  (r c.assembly.clock).within fun x => c.withAssembly { c.assembly with clock := x }

variable [Host]

/-- Set the block height; the answer is the height. -/
def setBlock (c : Chamber σ) (n : Int) : Reply (Chamber σ) Unit := c.onClock (·.set n)

/-- Move the clock forward; the answer is the new height. -/
def advance (c : Chamber σ) (n : Int) : Reply (Chamber σ) Int := c.onClock (·.advance n)

def onFunds {α : Type} (c : Chamber σ) (r : σ → Reply σ α) : Reply (Chamber σ) α :=
  (r c.funds).within c.withFunds

section Funds

variable [FundLock σ]

def step (c : Chamber σ) : Step → Reply (Chamber σ) Answer
  | .call x => c.perform x
  | .setBlock n => (c.setBlock n).map fun _ => .done
  | .advance n => (c.advance n).map .amount

def run (c : Chamber σ) (steps : List Step) : Chamber σ :=
  steps.foldl (fun c s => (c.step s).state) c

theorem run_append (c : Chamber σ) (a b : List Step) : c.run (a ++ b) = (c.run a).run b :=
  List.foldl_append

end Funds

def ledgerStep (c : Chamber Ledger) : LedgerStep → Reply (Chamber Ledger) Answer
  | .step s => c.step s
  | .mint a n => (c.onFunds (·.mint a n)).map fun _ => .done
  | .lock a n => (c.onFunds (·.lock a n)).map fun _ => .done
  | .unlock a n => (c.onFunds (·.unlock a n)).map fun _ => .done

def ledgerRun (c : Chamber Ledger) (steps : List LedgerStep) : Chamber Ledger :=
  steps.foldl (fun c s => (c.ledgerStep s).state) c

end Chamber

end QuadraticVoting
