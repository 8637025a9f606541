import QuadraticVoting.Text.Word

/-!
# Scanning

Reading a text from a place on, and finding every place where a rule matches. A rule sees the
character before the place and the text from the place on, and says how long its match is and
where in the match the marked part starts. `spans` lists the marked parts from left to right; the
search goes on behind each match, so that matches do not overlap.
-/

namespace QuadraticVoting.Text

/-- What follows a word, if the text starts with it. -/
def after? : (word cs : List Char) → Option (List Char)
  | [], cs => some cs
  | _ :: _, [] => none
  | w :: ws, c :: cs => if c = w then after? ws cs else none

theorem after?_eq_some_iff {word cs rest : List Char} :
    after? word cs = some rest ↔ cs = word ++ rest := by
  induction word generalizing cs with
  | nil => simp [after?]
  | cons w ws ih =>
    cases cs with
    | nil => simp [after?]
    | cons c cs =>
      rw [after?]
      split
      · next h => simp [h, ih]
      · next h => simp [h]

/-- What follows a run of at least one character of a class, as long as it can be. -/
def afterRun? (p : Char → Bool) : List Char → Option (List Char)
  | [] => none
  | c :: cs => if p c then some (cs.dropWhile p) else none

/-- Whether a word character stands at a place, given as what comes there if anything does. -/
def isWordAt (c : Option Char) : Bool := c.any isWord

/-- A part of a text, from `start` up to and without `stop`. -/
structure Span where
  start : Nat
  stop : Nat
deriving DecidableEq, Inhabited

/-- A match at a place: how long it is, and how much of it comes before the marked part. -/
structure Match where
  length : Nat
  skip : Nat
deriving DecidableEq

abbrev Rule := (before : Option Char) → List Char → Option Match

/-- The marked parts of the matches in a text that starts at `place`; the first `wait` characters
belong to a match already. -/
def spansFrom (rule : Rule) : (wait place : Nat) → (before : Option Char) → List Char → List Span
  | _, _, _, [] => []
  | wait + 1, place, _, c :: cs => spansFrom rule wait (place + 1) (some c) cs
  | 0, place, before, c :: cs =>
    match rule before (c :: cs) with
    | none => spansFrom rule 0 (place + 1) (some c) cs
    | some m =>
      ⟨place + m.skip, place + m.length⟩ ::
        spansFrom rule (m.length - 1) (place + 1) (some c) cs

def spans (rule : Rule) (cs : List Char) : List Span := spansFrom rule 0 0 none cs

/-- The match that reaches up to the rest of a text, marked as a whole. -/
def upTo (cs rest : List Char) : Match := ⟨cs.length - rest.length, 0⟩

namespace Rule

/-- One of several words, the first that fits. -/
def words (l : List (List Char)) : Rule := fun _ cs =>
  (l.findSome? (after? · cs)).map (upTo cs)

/-- One of several words with no word character on either side. -/
def wholeWords (l : List (List Char)) : Rule := fun before cs =>
  if isWordAt before then none
  else (l.findSome? fun w => (after? w cs).filter fun rest => !isWordAt rest.head?).map (upTo cs)

end Rule

end QuadraticVoting.Text
