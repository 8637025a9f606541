import QuadraticVoting.Text.Basic

/-!
# Safe text

Texts that reach a terminal or a log file may come from callers, so escape sequences and control
characters are taken out first. Complete escape sequences go as a whole, from left to right; then
every control character but tab and newline goes, an escape character that opened no complete
sequence among them.
-/

namespace QuadraticVoting.Log

def escape : Char := Char.ofNat 0x1B

/-- The parameter bytes of a control sequence. -/
def isParameter (c : Char) : Bool := '0' ≤ c && c ≤ '?'

/-- The intermediate bytes of a control sequence. -/
def isIntermediate (c : Char) : Bool := ' ' ≤ c && c ≤ '/'

def isFinal (c : Char) : Bool := '@' ≤ c && c ≤ '~'

/-- The one-character commands, all but the bracket that opens a control sequence. -/
def isCommand (c : Char) : Bool := ('@' ≤ c && c ≤ 'Z') || ('\\' ≤ c && c ≤ '_')

/-- What follows the end of a control sequence, read from after its bracket. -/
def afterControl (ps : List CodePoint) : Option (List CodePoint) :=
  match (ps.dropWhile (·.is isParameter)).dropWhile (·.is isIntermediate) with
  | p :: rest => if p.is isFinal then some rest else none
  | [] => none

/-- What follows an escape sequence, read from after the escape character. -/
def afterEscape : List CodePoint → Option (List CodePoint)
  | [] => none
  | p :: ps => if p = '[' then afterControl ps else if p.is isCommand then some ps else none

theorem length_dropWhile_le {α : Type} (p : α → Bool) (l : List α) :
    (l.dropWhile p).length ≤ l.length := (List.dropWhile_sublist p).length_le

theorem length_afterEscape {ps rest : List CodePoint} (h : afterEscape ps = some rest) :
    rest.length < ps.length := by
  cases ps with
  | nil => cases h
  | cons p ps =>
    rw [afterEscape] at h
    split at h
    · rw [afterControl] at h
      split at h
      · next q tail he =>
        split at h
        · cases h
          have h₁ := length_dropWhile_le (·.is isIntermediate) (ps.dropWhile (·.is isParameter))
          have h₂ := length_dropWhile_le (·.is isParameter) ps
          rw [he] at h₁
          simp only [List.length_cons] at h₁ ⊢
          omega
        · cases h
      · cases h
    · split at h
      · cases h; simp
      · cases h

def dropEscapes : List CodePoint → List CodePoint
  | [] => []
  | p :: ps =>
    if p = escape then
      match _h : afterEscape ps with
      | some rest => dropEscapes rest
      | none => p :: dropEscapes ps
    else p :: dropEscapes ps
termination_by l => l.length
decreasing_by
  · have := length_afterEscape _h; simp only [List.length_cons]; omega
  · simp
  · simp

/-- The control characters that are taken out: all but tab and newline. -/
def isUnsafe (c : Char) : Bool := (c.toNat < 0x20 && c != '\t' && c != '\n') || c.toNat == 0x7F

def safePoints (ps : List CodePoint) : List CodePoint :=
  (dropEscapes ps).filter fun p => !p.is isUnsafe

def sanitize (t : Text) : Text := ⟨safePoints t.toList⟩

theorem dropEscapes_cons_of_ne {p : CodePoint} (ps : List CodePoint) (h : p ≠ escape) :
    dropEscapes (p :: ps) = p :: dropEscapes ps := by rw [dropEscapes, if_neg h]

theorem dropEscapes_of_not_mem {ps : List CodePoint} (h : (escape : CodePoint) ∉ ps) :
    dropEscapes ps = ps := by
  induction ps with
  | nil => rw [dropEscapes]
  | cons p ps ih =>
    rw [List.mem_cons, not_or] at h
    rw [dropEscapes_cons_of_ne _ (Ne.symm h.1), ih h.2]

end QuadraticVoting.Log
