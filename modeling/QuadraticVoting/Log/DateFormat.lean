import QuadraticVoting.Log.Verdict

/-!
# Date formats

A date format is a run of tokens: directives such as `%Y` or `%-d`, the escape `%%`, and single
separators. `tokens?` reads one, and `chars` writes it; a text has at most one reading.

The test that a format has to pass asks for a run of tokens, which one newline may follow, and
for a directive. It looks for the directive at every percent sign of the text, also at the second
one of an escape.
-/

namespace QuadraticVoting.Log.DateFormat

/-- The format in force when none is given. -/
def standard : String := "%Y-%m-%dT%H:%M:%S"

/-- The letters that name a part of a date. -/
def isDirectiveLetter (c : Char) : Bool :=
  "ABCDFGHIMNPRSTUVWXYZabcdefghjklmnprstuwxyz".toList.contains c

def isModifier (c : Char) : Bool := c == 'E' || c == 'O'

def isFlag (c : Char) : Bool := "-_0^#".toList.contains c

def isSeparator (c : Char) : Bool := "0123456789 \t:-/.,TZ+".toList.contains c

inductive Token
  | percent
  | directive (modifier : Option Char) (flags : List Char) (letter : Char)
  | separator (c : Char)
deriving DecidableEq

namespace Token

def chars : Token → List Char
  | percent => ['%', '%']
  | directive m flags letter => '%' :: m.toList ++ flags ++ [letter]
  | separator c => [c]

/-- Whether the parts of a token are of the kinds that they should be. -/
def Valid : Token → Prop
  | percent => True
  | directive m flags letter =>
    (∀ c ∈ m, isModifier c = true) ∧ (∀ c ∈ flags, isFlag c = true) ∧
      isDirectiveLetter letter = true
  | separator c => isSeparator c = true

def isDirective : Token → Bool
  | directive .. => true
  | percent | separator _ => false

end Token

/-- The modifier that a text starts with, and what follows it. -/
def modifier : List Char → Option Char × List Char
  | [] => (none, [])
  | c :: cs => if isModifier c then (some c, cs) else (none, c :: cs)

/-- The directive that a text starts with after the percent sign, and what follows it. -/
def directive? (cs : List Char) : Option (Token × List Char) :=
  let (m, cs) := modifier cs
  match cs.dropWhile isFlag with
  | [] => none
  | c :: rest =>
    if isDirectiveLetter c then some (.directive m (cs.takeWhile isFlag) c, rest) else none

/-- The token that a text starts with, and what follows it. -/
def token? : List Char → Option (Token × List Char)
  | [] => none
  | c :: cs =>
    if c = '%' then
      match cs with
      | '%' :: rest => some (.percent, rest)
      | _ => directive? cs
    else if isSeparator c then some (.separator c, cs)
    else none

theorem length_modifier_le (cs : List Char) : (modifier cs).2.length ≤ cs.length := by
  unfold modifier
  split
  · simp
  · split <;> simp

theorem length_directive? {cs rest : List Char} {t : Token} (h : directive? cs = some (t, rest)) :
    rest.length < cs.length := by
  have h₁ := length_modifier_le cs
  simp only [directive?] at h
  split at h
  · cases h
  · next c tail e =>
    have h₂ := (List.dropWhile_sublist (l := (modifier cs).2) isFlag).length_le
    rw [e, List.length_cons] at h₂
    split at h
    · cases h; omega
    · cases h

theorem length_token? {cs rest : List Char} {t : Token} (h : token? cs = some (t, rest)) :
    rest.length < cs.length := by
  unfold token? at h
  split at h
  · cases h
  · split at h
    · split at h
      · cases h; simp only [List.length_cons]; omega
      · have := length_directive? h; simp only [List.length_cons]; omega
    · split at h
      · cases h; simp
      · cases h

def tokens? (cs : List Char) : Option (List Token) :=
  if cs = [] then some []
  else
    match _h : token? cs with
    | none => none
    | some (t, rest) => (tokens? rest).map (t :: ·)
termination_by cs.length
decreasing_by exact length_token? _h

def chars (l : List Token) : List Char := l.flatMap Token.chars

/-- Whether a directive starts at some percent sign of the first line. -/
def hasDirective : List Char → Bool
  | [] => false
  | c :: cs => (c == '%' && (directive? cs).isSome) || (c != '\n' && hasDirective cs)

/-- The text without the one newline that may end it. -/
def body (cs : List Char) : List Char := if cs.getLast? = some '\n' then cs.dropLast else cs

def accepts (cs : List Char) : Bool :=
  hasDirective cs && (tokens? (body cs)).any fun l => !l.isEmpty

def validate (format : Text) : Verdict := .ofTest standard (accepts ·.masked) format

end QuadraticVoting.Log.DateFormat
