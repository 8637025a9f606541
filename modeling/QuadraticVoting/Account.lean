import QuadraticVoting.Value

/-!
# Accounts

An account is known by an opaque text. A caller may also leave it out; messages then show `None`
in its place, and no call that needs an account accepts the absent or the empty one.
-/

namespace QuadraticVoting

inductive Account
  | absent
  | named (id : Text)
deriving DecidableEq, Inhabited

namespace Account

/-- Whether there is an account at all: a text, and not the empty one. -/
def isGiven : Account → Bool
  | absent => false
  | named id => id != ""

def text : Account → Text
  | absent => "None"
  | named id => id

/-- An account between quotes, as messages name it. -/
def quoted (a : Account) : Text := "'" ++ a.text ++ "'"

/-- The name of an account as a key of a table. -/
def key : Account → Text
  | absent => "null"
  | named id => id

def toValue : Account → Value
  | absent => .null
  | named id => .text id

end Account

end QuadraticVoting
