import QuadraticVoting.Reply

/-!
# The block clock

The host sets the block height, to any height that is not negative, or moves it forward.
-/

namespace QuadraticVoting

structure Clock where
  block : Int
  nonneg : 0 ≤ block
deriving DecidableEq

namespace Clock

def zero : Clock := ⟨0, Int.le_refl 0⟩

instance : Inhabited Clock := ⟨zero⟩

def ofBlock (n : Int) : Except Fault Clock :=
  if h : n < 0 then .error .negativeBlock else .ok ⟨n, by omega⟩

variable [Host]

def set (c : Clock) (n : Int) : Reply Clock Unit :=
  if h : n < 0 then .fail c .negativeBlock
  else .announce ⟨n, by omega⟩ (.clockSet n) ()

/-- The height after moving forward. -/
def advance (c : Clock) (n : Int) : Reply Clock Int :=
  if h : n < 0 then .fail c .clockBackwards
  else .done ⟨c.block + n, by have := c.nonneg; omega⟩ (c.block + n)

def describe (c : Clock) : Except Fault Text :=
  Fault.writing [c.block] s!"<BlockClock block={c.block}>"

end Clock

end QuadraticVoting
