import QuadraticVoting.Text.Basic

/-!
# Texts in strands

A text that is laid out to a width may be filling for the most part: blanks or zeros. A strand is a
text as it stands or a filling of some length, so that a wide text can be made and looked at
without being written out. `Strand.textOf` writes strands out; after `Strand.brief` every filling
is a single character or none.
-/

namespace QuadraticVoting

inductive Strand
  | plain (t : Text)
  | blanks (n : Nat)
  | zeros (n : Nat)
deriving DecidableEq

namespace Strand

def length : Strand → Nat
  | plain t => t.length
  | blanks n | zeros n => n

def text : Strand → Text
  | plain t => t
  | blanks n => .ofChars (List.replicate n ' ')
  | zeros n => .ofChars (List.replicate n '0')

def brief : Strand → Strand
  | plain t => plain t
  | blanks n => blanks (min n 1)
  | zeros n => zeros (min n 1)

def lengthOf (l : List Strand) : Nat := l.foldr (·.length + ·) 0

def textOf (l : List Strand) : Text := ⟨l.flatMap (·.text.toList)⟩

@[simp] theorem textOf_nil : textOf [] = .empty := rfl

@[simp] theorem textOf_cons (s : Strand) (l : List Strand) :
    textOf (s :: l) = s.text ++ textOf l := rfl

theorem length_text (s : Strand) : s.text.length = s.length := by
  cases s <;> simp [text, length, Text.length, Text.ofChars]

theorem length_textOf (l : List Strand) : (textOf l).length = lengthOf l := by
  induction l with
  | nil => rfl
  | cons s l ih =>
    rw [textOf_cons, Text.length_append, length_text, ih, lengthOf, lengthOf, List.foldr_cons]

end Strand

end QuadraticVoting
