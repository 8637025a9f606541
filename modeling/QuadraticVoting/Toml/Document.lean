import QuadraticVoting.Toml.Room

/-!
# TOML documents

A document is read line by line: a pair of a key and a value, the header of a table or of the next
element of an array of tables, or nothing. Each line is put into a draft before the next is read.

The draft remembers which names are taken. A table that a header opened, or that a key with points
went through under an earlier header, must not be opened again; an array or a table that was
written as a value must not be changed in any way.
-/

namespace QuadraticVoting.Toml

abbrev Table := List (Text × Value)

/-- Change the table that a path leads to, through the last elements of arrays of tables if
`throughLists` says so; tables that are not there are made. -/
def within (throughLists : Bool) (f : Table → Option Table) : (path : List Text) → Table →
    Option Table
  | [], t => f t
  | k :: path, t =>
    let replace (v : Value) : Table := t.map fun e => if e.1 = k then (k, v) else e
    match Value.field? k t with
    | none => (within throughLists f path []).map fun inner => t ++ [(k, .table inner)]
    | some (.table inner) =>
      (within throughLists f path inner).map fun inner => replace (.table inner)
    | some (.list l) =>
      match throughLists, l.getLast? with
      | true, some (.table inner) =>
        (within throughLists f path inner).map fun inner =>
          replace (.list (l.dropLast ++ [.table inner]))
      | _, _ => none
    | some _ => none

/-- Add a pair to a table that does not have its key yet. -/
def addPair (k : Text) (v : Value) (t : Table) : Option Table :=
  match Value.field? k t with
  | none => some (t ++ [(k, v)])
  | some _ => none

/-- Add an empty table to the array of tables under a key. -/
def addElement (k : Text) (t : Table) : Option Table :=
  match Value.field? k t with
  | none => some (t ++ [(k, .list [.table []])])
  | some (.list l) =>
    some (t.map fun e => if e.1 = k then (k, .list (l ++ [.table []])) else e)
  | some _ => none

/-- All parts of a key but the last, and the last. -/
def splitKey (key : List Text) : List Text × Text :=
  (key.dropLast, key.getLast?.getD "")

/-- Whether a value is made of parts. -/
def isCompound : Value → Bool
  | .list _ | .table _ => true
  | .null | .bool _ | .int _ | .real _ | .stamp _ | .text _ => false

/-- Whether a path leads to or through one of the given places. -/
def isUnder (places : List (List Text)) (path : List Text) : Bool :=
  places.any (·.isPrefixOf path)

/-! ### Values -/

/-- Texts, truth values, dates, times and numbers. -/
def simpleValue : Reader Value := do
  let cs ← get
  match cs with
  | [] => fail
  | c :: _ =>
    if isQuote c then
      let s ← expect (quoted? c)
      return .text (.ofChars s)
    else
      match Text.after? "true".toList cs, Text.after? "false".toList cs with
      | some rest, _ => set rest; return .bool true
      | none, some rest => set rest; return .bool false
      | none, none =>
        match (stamp? cs).orElse fun _ => number? cs with
        | some (.ok v, rest) => set rest; return v
        | some (.error p, _) => throw p
        | none => expect special?

/-! ### Values in one another

What lies in a list or a table has less room than these.
-/

/-- The room that a table takes for itself. -/
def tableRoom : Nat := 3

/-- How much less room there is for the values of a list. -/
def listStep : Nat := 2

/-- How much less room there is for the pairs of a table. -/
def tableStep : Nat := 2

/-- How much less room there is for the value of a pair. -/
def pairStep : Nat := 1

/-- Say that the document is malformed, if there is room for that. -/
def complain {α : Type} (room : Nat) : Reader α :=
  if room < complaintRoom then throw .tooDeep else fail

/-- Read what takes the room that the rest of the document tells. -/
def taking {α : Type} (room : Nat) (cost : List Char → Nat) (read : Reader α) : Reader α :=
  fun cs => if room < cost cs then .error .tooDeep else read cs

def skipGapIn (room : Nat) : Reader Unit := taking room gapRoom skipGap

mutual

/-- Any value for which there is room. The fuel bounds the values still to be read, of which there
cannot be more than characters. -/
def value : (fuel room : Nat) → Reader Value
  | 0, _ => fail
  | fuel + 1, room => do
    match ← get with
    | '[' :: cs =>
      set cs
      skipGapIn room
      return .list (← items fuel room)
    | '\x7b' :: cs =>
      if room < tableRoom then throw .tooDeep
      set cs
      skipSpaces
      return .table (← members fuel room true [] [])
    | _ => taking room simpleRoom simpleValue

/-- The values of an array up to its end, from a value or the closing bracket on. -/
def items : (fuel room : Nat) → Reader (List Value)
  | 0, _ => fail
  | fuel + 1, room => do
    match ← get with
    | ']' :: cs => set cs; return []
    | _ =>
      let v ← value fuel (room - listStep)
      skipGapIn room
      match ← get with
      | ']' :: cs => set cs; return [v]
      | ',' :: cs => set cs; skipGapIn room; return v :: (← items fuel room)
      | _ => complain (room - 1)

/-- The pairs of a table written as a value, added to those before, of which some are closed to
changes. The table may end here only if it is empty. -/
def members : (fuel room : Nat) → (first : Bool) → Table → (closed : List (List Text)) →
    Reader Table
  | 0, _, _, _, _ => fail
  | fuel + 1, room, first, t, closed => do
    match first, ← get with
    | true, '\x7d' :: cs => set cs; return t
    | _, _ =>
      let (key, v) ← pair fuel (room - tableStep)
      if isUnder closed key then complain (room - 1)
      let (parents, k) := splitKey key
      match within false (addPair k v) parents t with
      | none => complain (room - 1)
      | some t =>
        skipSpaces
        match ← get with
        | '\x7d' :: cs => set cs; return t
        | ',' :: cs =>
          set cs
          skipSpaces
          members fuel room false t (if isCompound v then closed ++ [key] else closed)
        | _ => complain (room - 1)

/-- A key, an equals sign and a value. -/
def pair : (fuel room : Nat) → Reader (List Text × Value)
  | 0, _ => fail
  | fuel + 1, room => do
    let key ← taking room keyRoom (expect key?)
    match ← get with
    | '=' :: cs =>
      set cs
      skipSpaces
      return (key, ← value fuel (room - pairStep))
    | _ => complain room

end

/-! ### Lines -/

inductive Line
  | blank
  | pair (key : List Text) (v : Value)
  /-- A header that opens a table. -/
  | table (key : List Text)
  /-- A header that opens the next element of an array of tables. -/
  | element (key : List Text)
deriving DecidableEq

/-- The key of a header, up to the brackets that close it. -/
def headerKey (close : List Char) : Reader (List Text) := do
  skipSpaces
  let key ← expect key?
  expect fun cs => (Text.after? close cs).map fun rest => ((), rest)
  return key

/-- What stands on a line, where there is some room for a value that lies in no other. -/
def content (room : Nat) : Reader Line := do
  match ← get with
  | [] => return .blank
  | '[' :: '[' :: cs => set cs; return .element (← headerKey [']', ']'])
  | '[' :: cs => set cs; return .table (← headerKey [']'])
  | c :: cs =>
    if c = '\n' ∨ c = '#' then return .blank
    else
      let (key, v) ← pair (2 * cs.length + 4) (room + pairStep)
      return .pair key v

/-- One line, and the newline behind it. -/
def line (room : Nat) : Reader Line := do
  skipSpaces
  let l ← content room
  skipSpaces
  skipComment
  match ← get with
  | [] => return l
  | '\n' :: cs => set cs; return l
  | _ => fail

/-! ### The draft -/

structure Draft where
  root : Table
  /-- The table that pairs go into. -/
  header : List Text
  /-- The tables that must not be opened again. -/
  opened : List (List Text)
  /-- Tables that must not be opened again once the next header is seen. -/
  passed : List (List Text)
  /-- What must not be changed. -/
  closed : List (List Text)
deriving DecidableEq

namespace Draft

def empty : Draft := ⟨[], [], [], [], []⟩

instance : Inhabited Draft := ⟨empty⟩

/-- What a header does whatever it opens. -/
def beginHeader (d : Draft) : Draft := { d with opened := d.opened ++ d.passed, passed := [] }

def openTable (d : Draft) (key : List Text) : Option Draft :=
  if d.opened.contains key || isUnder d.closed key then none
  else (within true some key d.root).map fun root =>
    { d with root, header := key, opened := d.opened ++ [key] }

/-- An element makes room for new tables under its key. -/
def openElement (d : Draft) (key : List Text) : Option Draft :=
  if isUnder d.closed key then none
  else
    let keep (l : List (List Text)) := l.filter fun path => !key.isPrefixOf path
    let (parents, k) := splitKey key
    (within true (addElement k) parents d.root).map fun root =>
      { d with root, header := key, opened := keep d.opened ++ [key], closed := keep d.closed }

/-- The tables that a key with points goes through. -/
def through (d : Draft) (key : List Text) : List (List Text) :=
  (List.range (key.length - 1)).map fun i => d.header ++ key.take (i + 1)

def addPair (d : Draft) (key : List Text) (v : Value) : Option Draft :=
  let through := d.through key
  let (parents, k) := splitKey key
  if through.any d.opened.contains || isUnder d.closed (d.header ++ parents) then none
  else (within true (Toml.addPair k v) (d.header ++ parents) d.root).map fun root =>
    { d with
      root
      passed := d.passed ++ through
      closed := if isCompound v then d.closed ++ [d.header ++ key] else d.closed }

def add (d : Draft) : Line → Option Draft
  | .blank => some d
  | .pair key v => d.addPair key v
  | .table key => d.beginHeader.openTable key
  | .element key => d.beginHeader.openElement key

end Draft

/-- Read lines into a draft up to the end. The fuel bounds their number, of which there are never
more than there are characters, since a line takes at least its newline. -/
def readLines (room : Nat) : (fuel : Nat) → Draft → List Char → Except Problem Draft
  | _, d, [] => .ok d
  | 0, _, _ :: _ => .error .malformed
  | fuel + 1, d, c :: cs =>
    match line room (c :: cs) with
    | .error p => .error p
    | .ok (l, rest) =>
      match d.add l with
      | none => .error .malformed
      | some d => readLines room fuel d rest

/-- The text with each pair of a carriage return and a newline made one newline. -/
def plainNewlines : List Char → List Char
  | '\r' :: '\n' :: cs => '\n' :: plainNewlines cs
  | c :: cs => c :: plainNewlines cs
  | [] => []

def parse (room : Nat) (s : String) : Except Problem Table :=
  let cs := plainNewlines s.toList
  (readLines room cs.length .empty cs).map Draft.root

end QuadraticVoting.Toml
