import QuadraticVoting.Host
import QuadraticVoting.Number.Shortest
import QuadraticVoting.Stamp
import QuadraticVoting.Text.Quoted

/-!
# Untyped values

Values as they stand in a settings document, in a call's unchecked arguments and in the snapshots
handed to a host. A number with a point is never an integer: it is kept in double precision.
`Value.literal` is the written form used in messages, in which texts are quoted and
`null`, `true` and `false` are spelled `None`, `True` and `False`; `Value.plain` is the same but
for a bare text, which stands as it is, and a bare stamp.

A value can be too large to be written: `Value.excess?` says what is too large in it.
-/

namespace QuadraticVoting

inductive Value
  | null
  | bool (b : Bool)
  | int (n : Int)
  | real (x : Double)
  | stamp (s : Stamp)
  | text (t : Text)
  | list (l : List Value)
  | table (l : List (Text × Value))
deriving Inhabited

namespace Value

mutual

def decEq : (a b : Value) → Decidable (a = b)
  | .null, b => match b with
    | .null => .isTrue rfl
    | .bool _ | .int _ | .real _ | .stamp _ | .text _ | .list _ | .table _ => .isFalse nofun
  | .bool a, b => match b with
    | .bool b => decidable_of_iff (a = b) (by simp)
    | .null | .int _ | .real _ | .stamp _ | .text _ | .list _ | .table _ => .isFalse nofun
  | .int a, b => match b with
    | .int b => decidable_of_iff (a = b) (by simp)
    | .null | .bool _ | .real _ | .stamp _ | .text _ | .list _ | .table _ => .isFalse nofun
  | .real a, b => match b with
    | .real b => decidable_of_iff (a = b) (by simp)
    | .null | .bool _ | .int _ | .stamp _ | .text _ | .list _ | .table _ => .isFalse nofun
  | .stamp a, b => match b with
    | .stamp b => decidable_of_iff (a = b) (by simp)
    | .null | .bool _ | .int _ | .real _ | .text _ | .list _ | .table _ => .isFalse nofun
  | .text a, b => match b with
    | .text b => decidable_of_iff (a = b) (by simp)
    | .null | .bool _ | .int _ | .real _ | .stamp _ | .list _ | .table _ => .isFalse nofun
  | .list a, b => match b with
    | .list b => have := decEqList a b; decidable_of_iff (a = b) (by simp)
    | .null | .bool _ | .int _ | .real _ | .stamp _ | .text _ | .table _ => .isFalse nofun
  | .table a, b => match b with
    | .table b => have := decEqTable a b; decidable_of_iff (a = b) (by simp)
    | .null | .bool _ | .int _ | .real _ | .stamp _ | .text _ | .list _ => .isFalse nofun

def decEqList : (a b : List Value) → Decidable (a = b)
  | [], b => match b with
    | [] => .isTrue rfl
    | _ :: _ => .isFalse nofun
  | a :: l, b => match b with
    | [] => .isFalse nofun
    | b :: m =>
      have := decEq a b
      have := decEqList l m
      decidable_of_iff (a = b ∧ l = m) (by simp)

def decEqTable : (a b : List (Text × Value)) → Decidable (a = b)
  | [], b => match b with
    | [] => .isTrue rfl
    | _ :: _ => .isFalse nofun
  | (k, a) :: l, b => match b with
    | [] => .isFalse nofun
    | (j, b) :: m =>
      have := decEq a b
      have := decEqTable l m
      decidable_of_iff ((k = j ∧ a = b) ∧ l = m) (by simp)

end

instance : DecidableEq Value := decEq

/-! ### Written form -/

def joined (sep : String) : List String → String
  | [] => ""
  | [s] => s
  | s :: l => s ++ sep ++ joined sep l

def literal : Value → String
  | .null => "None"
  | .bool b => if b then "True" else "False"
  | .int n => toString n
  | .real x => x.literal
  | .stamp s => s.literal
  | .text t => Text.quote t
  | .list l => "[" ++ joined ", " (literals l) ++ "]"
  | .table l => "\x7b" ++ joined ", " (fieldLiterals l) ++ "\x7d"
where
  literals : List Value → List String
    | [] => []
    | v :: l => v.literal :: literals l
  fieldLiterals : List (Text × Value) → List String
    | [] => []
    | (k, v) :: l => (Text.quote k ++ ": " ++ v.literal) :: fieldLiterals l

def plain : Value → Text
  | .text t => t
  | .stamp s => s.text
  | v => v.literal

/-- The name of a value's type, as messages give it. -/
def typeName : Value → String
  | .null => "NoneType"
  | .bool _ => "bool"
  | .int _ => "int"
  | .real _ => "float"
  | .stamp s => s.typeName
  | .text _ => "str"
  | .list _ => "list"
  | .table _ => "dict"

/-! ### What is too large -/

/-- What may be too large to be read or written. -/
inductive Excess
  | integer
  /-- Values that lie too deep in one another. -/
  | nesting
deriving DecidableEq

def digitLimit : String := "Exceeds the limit (4300 digits) for integer string conversion"

def digitAdvice : String := "use sys.set_int_max_str_digits() to increase the limit"

def Excess.message : Excess → String
  | integer => s!"{digitLimit}; {digitAdvice}"
  | nesting => "maximum recursion depth exceeded while getting the repr of an object"

/-- The most digits with which an integer is written. -/
def maxDigits : Nat := 4300

/-- The least number with more digits than that. -/
def writtenBound : Nat := Nat.pow (Nat.pow 10 (maxDigits / 100)) 100

def isWritable (n : Int) : Bool := n.natAbs < writtenBound

/-- What is too large in a value that lies in so many others, from left to right. -/
def excessAt [Host] (depth : Nat) (v : Value) : Option Excess :=
  if Host.depth < depth then some .nesting
  else
    match v with
    | .int n => if isWritable n then none else some .integer
    | .list l => inList (depth + 1) l
    | .table l => inTable (depth + 1) l
    | .null | .bool _ | .real _ | .stamp _ | .text _ => none
where
  inList (depth : Nat) : List Value → Option Excess
    | [] => none
    | v :: l => (v.excessAt depth).or (inList depth l)
  inTable (depth : Nat) : List (Text × Value) → Option Excess
    | [] => none
    | (_, v) :: l => (v.excessAt depth).or (inTable depth l)

def excess? [Host] (v : Value) : Option Excess := v.excessAt 0

/-! ### Readings -/

/-- Whether a value counts as true: `null`, zero and everything empty do not. -/
def truthy : Value → Bool
  | .null => false
  | .bool b => b
  | .int n => n != 0
  | .real x => !x.isZero
  | .stamp _ => true
  | .text t => t != ""
  | .list l => !l.isEmpty
  | .table l => !l.isEmpty

/-- The integer a value equals, where `false` equals 0 and `true` equals 1. -/
def equalInt? : Value → Option Int
  | .bool b => some (if b then 1 else 0)
  | .int n => some n
  | .real x => x.toInt?
  | _ => none

/-- The first value under a key of a table's pairs. -/
def field? (key : Text) : List (Text × Value) → Option Value
  | [] => none
  | (k, v) :: l => if k = key then some v else field? key l

end Value

end QuadraticVoting
