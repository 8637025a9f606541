import QuadraticVoting.Toml.Number

/-!
# The room that reading takes

Values lie in one another only as far as there is room. Everything that is read takes some room for
itself, a text more than a number, and so does saying what is wrong with what cannot be read. The
functions here say how much it is, from what is left of the document: the most that is taken at any
point up to the end of the thing, or up to where reading it fails.
-/

namespace QuadraticVoting.Toml

/-- The room that it takes to say what is wrong. -/
def complaintRoom : Nat := 3

/-! ### Texts -/

/-- The room that an escape takes, read from after the backslash. -/
def escapeRoom (multiline : Bool) (cs : List Char) : Nat :=
  let hex := cs.head?.any fun c => c == 'u' || c == 'U'
  let steps := (if multiline then 2 else 1) + if hex then 1 else 0
  steps + if (escape? multiline cs).isNone then complaintRoom else if hex then 2 else 1

/-- The room that the characters of a basic text take, up to the closing quotes. -/
def basicRoom (multiline : Bool) (cs : List Char) : Nat :=
  match cs with
  | [] => complaintRoom
  | c :: cs =>
    match afterClose? multiline '"' (c :: cs) with
    | some _ => 1
    | none =>
      if c = '\\' then
        match _h : escape? multiline cs with
        | none => escapeRoom multiline cs
        | some (_, rest) => max (escapeRoom multiline cs) (basicRoom multiline rest)
      else if isForbidden multiline c then complaintRoom
      else basicRoom multiline cs
termination_by cs.length
decreasing_by
  · have := length_escape? _h; simp only [List.length_cons]; omega
  · simp

def literalRoom (multiline : Bool) (cs : List Char) : Nat :=
  if (literalChars? multiline cs).isSome then 1 else complaintRoom

/-- The room of a text in quotes of one kind, read from after the opening ones. -/
def quotedRoom (multiline : Bool) (quote : Char) (cs : List Char) : Nat :=
  2 + if quote = '"' then basicRoom multiline cs else literalRoom multiline cs

/-- The room of a text in quotes of any kind, read from the quotes on. -/
def textRoom (quote : Char) (cs : List Char) : Nat :=
  match Text.after? [quote, quote, quote] cs with
  | some rest => quotedRoom true quote rest
  | none => quotedRoom false quote (cs.drop 1)

/-! ### Other values -/

/-- The room of a date or a time, given as it stands. A difference to the common time, which comes
after the date, takes more. -/
def stampRoom (raw : List Char) : Nat :=
  if (raw.drop 10).any fun c => c == '+' || c == '-' then 4 else 2

/-- The room of a value without parts. -/
def simpleRoom (cs : List Char) : Nat :=
  match cs with
  | [] => complaintRoom
  | c :: _ =>
    if isQuote c then textRoom c cs
    else if (Text.after? "true".toList cs).isSome || (Text.after? "false".toList cs).isSome then 1
    else
      match stamp? cs with
      | some (.ok _, rest) => stampRoom (cs.take (cs.length - rest.length))
      | some (.error _, rest) => max (stampRoom (cs.take (cs.length - rest.length))) complaintRoom
      | none =>
        if (number? cs).isSome then 2 else if (special? cs).isSome then 1 else complaintRoom

/-! ### Between values -/

/-- The room of one part of a key. -/
def partRoom : List Char → Nat
  | [] => complaintRoom
  | c :: cs =>
    if isBareKey c then 1 else if isQuote c then quotedRoom false c cs else complaintRoom

/-- The room of the part of a key that comes next and of all parts behind it, of which there are
no more than characters. -/
def partsRoom : (fuel : Nat) → List Char → Nat
  | 0, _ => 0
  | fuel + 1, cs =>
    max (partRoom cs) <|
      match (keyPart? cs).map fun r => r.2.dropWhile isSpace with
      | some ('.' :: rest) => partsRoom fuel (rest.dropWhile isSpace)
      | _ => 0

def keyRoom (cs : List Char) : Nat := 2 + partsRoom (cs.length + 1) cs

/-- The room of the blanks, newlines and comments that come next. -/
def gapRoom (cs : List Char) : Nat :=
  if (afterGap? false cs).isNone then 4 + complaintRoom
  else if (cs.dropWhile fun c => isSpace c || c == '\n').head? = some '#' then 5
  else 3

end QuadraticVoting.Toml
