import QuadraticVoting.Text.Basic
import QuadraticVoting.Text.Scan

/-!
# TOML texts

The leaves of a TOML document: blanks, comments, and the four kinds of quoted text. A basic text
stands between double quotes and may hold escapes; a literal text stands between single quotes
and may not. Either may be tripled, and then it may run over several lines, a newline right after
the opening quotes does not count, and up to two more quotes may come before the closing ones.

Every reader takes what is left of the document and gives its result with what is left after it.
-/

namespace QuadraticVoting.Toml

/-- Why a document cannot be read. -/
inductive Problem
  | malformed
  /-- A decimal integer with more digits than integers may have. -/
  | tooManyDigits (count : Nat)
  /-- A value that lies too deep in others. -/
  | tooDeep
deriving DecidableEq

/-- A reader of what is left of a document. -/
abbrev Reader := StateT (List Char) (Except Problem)

def fail {α : Type} : Reader α := throw .malformed

/-- Go on with what a step leaves, if it applies. -/
def expect {α : Type} (step : List Char → Option (α × List Char)) : Reader α := fun cs =>
  match step cs with
  | some r => .ok r
  | none => .error .malformed

def isSpace (c : Char) : Bool := c == ' ' || c == '\t'

/-- The characters that may stand nowhere in a line. -/
def isControl (c : Char) : Bool := (c.toNat < 0x20 && c != '\t') || c.toNat == 0x7F

def isHex (c : Char) : Bool :=
  ('0' ≤ c && c ≤ '9') || ('a' ≤ c && c ≤ 'f') || ('A' ≤ c && c ≤ 'F')

def hexValue (c : Char) : Nat :=
  if c ≤ '9' then c.toNat - 48 else if c ≤ 'F' then c.toNat - 55 else c.toNat - 87

def skipSpaces : Reader Unit := modify (·.dropWhile isSpace)

/-- Skip a comment, up to the newline that ends it. -/
def skipComment : Reader Unit := do
  match ← get with
  | '#' :: cs =>
    if (cs.takeWhile (· != '\n')).any isControl then fail
    else set (cs.dropWhile (· != '\n'))
  | _ => return ()

/-- What follows blanks, newlines and comments; the flag says that a comment has begun. -/
def afterGap? : (comment : Bool) → List Char → Option (List Char)
  | _, [] => some []
  | true, c :: cs =>
    if c = '\n' then afterGap? false cs else if isControl c then none else afterGap? true cs
  | false, c :: cs =>
    if isSpace c || c == '\n' then afterGap? false cs
    else if c = '#' then afterGap? true cs
    else some (c :: cs)

def skipGap : Reader Unit := expect fun cs => (afterGap? false cs).map fun rest => ((), rest)

/-! ### Basic texts -/

/-- The character whose code the next hexadecimal digits are, as many as `n`. -/
def hexChar? (n : Nat) (cs : List Char) : Option (List Char × List Char) :=
  let digits := cs.take n
  if digits.length = n ∧ digits.all isHex then
    let code := digits.foldl (fun k c => 16 * k + hexValue c) 0
    if code.isValidChar then some ([Char.ofNat code], cs.drop n) else none
  else none

/-- The characters that an escape with a single letter stands for. -/
def escaped? (c : Char) : Option Char :=
  if c = 'b' then some (Char.ofNat 8)
  else if c = 't' then some '\t'
  else if c = 'n' then some '\n'
  else if c = 'f' then some (Char.ofNat 12)
  else if c = 'r' then some '\r'
  else if c = '"' ∨ c = '\\' then some c
  else none

/-- The rest of a text after a backslash at the end of its line: the newline, and all blanks and
newlines behind it, do not count. -/
def afterLineEnd? (cs : List Char) : Option (List Char) :=
  match cs.dropWhile isSpace with
  | [] => some []
  | '\n' :: rest => some (rest.dropWhile fun c => isSpace c || c == '\n')
  | _ => none

/-- What an escape stands for, read from after the backslash. -/
def escape? (multiline : Bool) : List Char → Option (List Char × List Char)
  | [] => none
  | c :: cs =>
    if multiline && (isSpace c || c == '\n') then
      (afterLineEnd? (c :: cs)).map fun rest => ([], rest)
    else if c = 'u' then hexChar? 4 cs
    else if c = 'U' then hexChar? 8 cs
    else (escaped? c).map fun d => ([d], cs)

theorem length_dropWhile_le (p : Char → Bool) (cs : List Char) :
    (cs.dropWhile p).length ≤ cs.length := (List.dropWhile_sublist p).length_le

theorem length_hexChar? {n : Nat} {cs s rest : List Char} (h : hexChar? n cs = some (s, rest)) :
    rest.length ≤ cs.length := by
  simp only [hexChar?] at h
  split at h
  · split at h
    · cases h; simp
    · cases h
  · cases h

theorem length_afterLineEnd? {cs rest : List Char} (h : afterLineEnd? cs = some rest) :
    rest.length ≤ cs.length := by
  have h₁ := length_dropWhile_le isSpace cs
  unfold afterLineEnd? at h
  split at h
  · cases h; simp
  · next tail e =>
    cases h
    have h₂ := length_dropWhile_le (fun c => isSpace c || c == '\n') tail
    rw [e, List.length_cons] at h₁
    omega
  · cases h

theorem length_escape? {multiline : Bool} {cs s rest : List Char}
    (h : escape? multiline cs = some (s, rest)) : rest.length ≤ cs.length := by
  unfold escape? at h
  split at h
  · cases h
  · next c tail =>
    split at h
    · obtain ⟨r, hr, e⟩ := Option.map_eq_some_iff.1 h
      cases e
      exact length_afterLineEnd? hr
    · split at h
      · have := length_hexChar? h; simp only [List.length_cons]; omega
      · split at h
        · have := length_hexChar? h; simp only [List.length_cons]; omega
        · obtain ⟨d, -, e⟩ := Option.map_eq_some_iff.1 h
          cases e; simp

/-- What follows the quotes that close a text, if it starts with them. -/
def afterClose? (multiline : Bool) (quote : Char) (cs : List Char) : Option (List Char) :=
  Text.after? (if multiline then [quote, quote, quote] else [quote]) cs

/-- The characters that may not stand in a text as they are. -/
def isForbidden (multiline : Bool) (c : Char) : Bool := isControl c && !(multiline && c == '\n')

/-- A basic text up to its end, and what follows the closing quotes. -/
def basicChars? (multiline : Bool) (cs : List Char) : Option (List Char × List Char) :=
  match cs with
  | [] => none
  | c :: cs =>
    match afterClose? multiline '"' (c :: cs) with
    | some rest => some ([], rest)
    | none =>
      if c = '\\' then
        match _h : escape? multiline cs with
        | none => none
        | some (s, rest) => (basicChars? multiline rest).map fun (t, r) => (s ++ t, r)
      else if isForbidden multiline c then none
      else (basicChars? multiline cs).map fun (t, r) => (c :: t, r)
termination_by cs.length
decreasing_by
  · have := length_escape? _h; simp only [List.length_cons]; omega
  · simp

/-- A literal text up to its end, and what follows the closing quotes. -/
def literalChars? (multiline : Bool) : List Char → Option (List Char × List Char)
  | [] => none
  | c :: cs =>
    match afterClose? multiline '\'' (c :: cs) with
    | some rest => some ([], rest)
    | none =>
      if isForbidden multiline c then none
      else (literalChars? multiline cs).map fun (t, r) => (c :: t, r)

/-! ### Quoted texts -/

/-- A text between single or double quotes, read from after the opening ones. -/
def quotedChars? (multiline : Bool) (quote : Char) (cs : List Char) :
    Option (List Char × List Char) :=
  if quote = '"' then basicChars? multiline cs else literalChars? multiline cs

/-- At most two quotes that belong to the text although its end has been seen. -/
def lateQuotes (quote : Char) : List Char → List Char × List Char
  | a :: b :: cs =>
    if a = quote then if b = quote then ([a, b], cs) else ([a], b :: cs) else ([], a :: b :: cs)
  | [a] => if a = quote then ([a], []) else ([], [a])
  | [] => ([], [])

/-- A text in tripled quotes, read from after the opening ones. -/
def tripled? (quote : Char) (cs : List Char) : Option (List Char × List Char) := do
  let cs := match cs with
    | '\n' :: rest => rest
    | _ => cs
  let (s, rest) ← quotedChars? true quote cs
  let (late, rest) := lateQuotes quote rest
  return (s ++ late, rest)

/-- A text in quotes of any kind, read from the quotes on. -/
def quoted? (quote : Char) (cs : List Char) : Option (List Char × List Char) :=
  match Text.after? [quote, quote, quote] cs with
  | some rest => tripled? quote rest
  | none => quotedChars? false quote (cs.drop 1)

/-! ### Keys -/

def isBareKey (c : Char) : Bool :=
  ('a' ≤ c && c ≤ 'z') || ('A' ≤ c && c ≤ 'Z') || ('0' ≤ c && c ≤ '9') || c == '-' || c == '_'

def isQuote (c : Char) : Bool := c == '"' || c == '\''

/-- One part of a key: a bare word, or a text in single or double quotes. -/
def keyPart? : List Char → Option (Text × List Char)
  | [] => none
  | c :: cs =>
    if isBareKey c then
      some (.ofChars (c :: cs.takeWhile isBareKey), cs.dropWhile isBareKey)
    else if isQuote c then (quotedChars? false c cs).map fun (s, rest) => (.ofChars s, rest)
    else none

/-- The parts of a key after the first, each after a point; no key has more parts than there are
characters left. -/
def keyParts? : (fuel : Nat) → List Char → Option (List Text × List Char)
  | 0, _ => none
  | fuel + 1, cs =>
    match cs.dropWhile isSpace with
    | '.' :: rest => do
      let (part, rest) ← keyPart? (rest.dropWhile isSpace)
      let (parts, rest) ← keyParts? fuel rest
      return (part :: parts, rest)
    | rest => some ([], rest)

/-- A key: parts with points between them, and the blanks behind it. -/
def key? (cs : List Char) : Option (List Text × List Char) := do
  let (part, rest) ← keyPart? cs
  let (parts, rest) ← keyParts? (rest.length + 1) rest
  return (part :: parts, rest)

end QuadraticVoting.Toml
