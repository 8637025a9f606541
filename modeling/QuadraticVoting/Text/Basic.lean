/-!
# Texts

A text is a sequence of code points. Nearly all code points are characters; those from U+D800 to
U+DFFF are surrogates, which a host may hand over one by one. Every `String` is a text, and a text
without surrogates is a `String`.

Texts are equal, and come one before the other, as their code points do.
-/

namespace QuadraticVoting

inductive CodePoint
  | char (c : Char)
  /-- A surrogate, counted from U+D800 on. -/
  | surrogate (index : Fin 0x800)
deriving DecidableEq

namespace CodePoint

instance : Coe Char CodePoint := ⟨char⟩

/-- The first surrogate. -/
def firstSurrogate : Nat := 0xD800

def number : CodePoint → Nat
  | char c => c.toNat
  | surrogate i => firstSurrogate + i

/-- The code point with a number below 0x110000. -/
def ofNat (n : Nat) : CodePoint :=
  if h : firstSurrogate ≤ n ∧ n < firstSurrogate + 0x800 then
    surrogate ⟨n - firstSurrogate, by omega⟩
  else char (Char.ofNat n)

/-- Whether a code point is a character of a class. -/
def is (p : CodePoint) (cls : Char → Bool) : Bool :=
  match p with
  | char c => cls c
  | surrogate _ => false

def char? : CodePoint → Option Char
  | char c => some c
  | surrogate _ => none

def isSurrogate (p : CodePoint) : Bool := p.char?.isNone

theorem ofNat_number (p : CodePoint) : ofNat p.number = p := by
  cases p with
  | char c =>
    have h : ¬ (firstSurrogate ≤ c.toNat ∧ c.toNat < firstSurrogate + 0x800) := by
      have := c.valid
      simp only [UInt32.isValidChar, Nat.isValidChar] at this
      unfold Char.toNat firstSurrogate
      omega
    rw [number, ofNat, dif_neg h, Char.ofNat_toNat]
  | surrogate i =>
    have h : firstSurrogate ≤ firstSurrogate + i ∧
        firstSurrogate + i < firstSurrogate + 0x800 := by
      have := i.isLt
      omega
    rw [number, ofNat, dif_pos h]
    exact congrArg surrogate (Fin.ext (Nat.add_sub_cancel_left ..))

end CodePoint

structure Text where
  ofList ::
  toList : List CodePoint
deriving DecidableEq

namespace Text

def empty : Text := ⟨[]⟩

instance : Inhabited Text := ⟨empty⟩

instance : Append Text := ⟨fun s t => ⟨s.toList ++ t.toList⟩⟩

def ofChars (cs : List Char) : Text := ⟨cs.map .char⟩

def ofString (s : String) : Text := ofChars s.toList

instance : Coe String Text := ⟨ofString⟩

def length (t : Text) : Nat := t.toList.length

/-- The characters of a text without surrogates. -/
def chars? (t : Text) : Option (List Char) := t.toList.mapM CodePoint.char?

def string? (t : Text) : Option String := t.chars?.map String.ofList

def hasSurrogate (t : Text) : Bool := t.toList.any CodePoint.isSurrogate

/-- The characters of a text, with the replacement character in the place of each surrogate. -/
def masked (t : Text) : List Char := t.toList.map fun p => p.char?.getD '\ufffd'

/-- Texts one after the other, with a separator between them. -/
def joined (sep : Text) : List Text → Text
  | [] => empty
  | [t] => t
  | t :: l => t ++ sep ++ joined sep l

/-! ### Order -/

def numbers (t : Text) : List Nat := t.toList.map CodePoint.number

/-- The order of a dictionary, in which a beginning comes before what it begins. -/
def notAfter : List Nat → List Nat → Bool
  | [], _ => true
  | _ :: _, [] => false
  | a :: as, b :: bs => a < b || (a == b && notAfter as bs)

instance : LE Text := ⟨fun s t => notAfter s.numbers t.numbers = true⟩

instance (s t : Text) : Decidable (s ≤ t) := inferInstanceAs (Decidable (_ = true))

@[simp] theorem toList_append (s t : Text) : (s ++ t).toList = s.toList ++ t.toList := rfl

@[simp] theorem length_append (s t : Text) : (s ++ t).length = s.length + t.length := by
  simp [length]

@[simp] theorem masked_append (s t : Text) : (s ++ t).masked = s.masked ++ t.masked := by
  simp [masked]

@[simp] theorem length_masked (t : Text) : t.masked.length = t.length := by
  simp [masked, length]

@[simp] theorem masked_ofChars (cs : List Char) : (ofChars cs).masked = cs := by
  simp [masked, ofChars, CodePoint.char?, Function.comp_def]

@[simp] theorem ofString_inj {s t : String} : ofString s = ofString t ↔ s = t := by
  refine ⟨fun h => String.toList_inj.1 ?_, congrArg _⟩
  exact (List.map_inj_right fun _ _ e => CodePoint.char.inj e).1 (congrArg toList h)

theorem chars?_ofChars (cs : List Char) : (ofChars cs).chars? = some cs := by
  unfold chars? ofChars
  induction cs with
  | nil => rfl
  | cons c cs ih => simp_all [CodePoint.char?]

theorem string?_ofString (s : String) : (ofString s).string? = some s := by
  simp [string?, ofString, chars?_ofChars]

end Text

end QuadraticVoting
