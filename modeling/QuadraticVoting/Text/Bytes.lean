import QuadraticVoting.Text.Basic

/-!
# Texts as bytes

The UTF-8 form of a text, which a text with surrogates does not have, and the form that a host
gives to what it keeps as bytes, such as the names of its files. There a byte that belongs to no
character of the UTF-8 form is read as a surrogate, from U+DC80 to U+DCFF, and written as the byte
again; so any bytes can be read, and reading them loses nothing (`hostBytes?_ofHostBytes`).
-/

namespace QuadraticVoting.Text

/-- The UTF-8 form of a text, if it has one. -/
def utf8? (t : Text) : Option (List UInt8) :=
  t.chars?.map fun cs => cs.flatMap String.utf8EncodeChar

/-! ### What a host keeps as bytes -/

/-- How far below the surrogates that stand for bytes the bytes lie, counted as surrogates are. -/
def byteOffset : Nat := 0x400

/-- The surrogate that stands for a byte. -/
def ofByte (b : UInt8) : CodePoint :=
  .surrogate ⟨byteOffset + b.toNat, by have := b.toNat_lt; unfold byteOffset; omega⟩

/-- The bytes of a code point, unless it is a surrogate that stands for no byte. -/
def pointBytes? : CodePoint → Option (List UInt8)
  | .char c => some (String.utf8EncodeChar c)
  | .surrogate i =>
    if byteOffset + 0x80 ≤ i.val ∧ i.val < byteOffset + 0x100 then
      some [.ofNat (i.val - byteOffset)]
    else none

def pointsBytes? : List CodePoint → Option (List UInt8)
  | [] => some []
  | p :: l => do return (← pointBytes? p) ++ (← pointsBytes? l)

/-- The bytes that a host keeps for a text. -/
def hostBytes? (t : Text) : Option (List UInt8) := pointsBytes? t.toList

/-- The number that the bytes of a UTF-8 form carry. -/
def carried : List UInt8 → Nat
  | [] => 0
  | [b] => b.toNat
  | b :: rest =>
    rest.foldl (fun n b => 64 * n + b.toNat % 64) (b.toNat % Nat.pow 2 (6 - rest.length))

/-- The character whose UTF-8 form the bytes are, if they are one. -/
def charOf? (bs : List UInt8) : Option Char :=
  let c := Char.ofNat (carried bs)
  if String.utf8EncodeChar c = bs then some c else none

/-- The character that a byte and the next `n` make, with `n`. -/
def charWith? (b : UInt8) (bs : List UInt8) (n : Nat) : Option (CodePoint × Nat) :=
  (charOf? (b :: bs.take n)).map fun c => (.char c, n)

/-- The code point that bytes start with, and how many bytes after the first belong to it. -/
def firstPoint (b : UInt8) (bs : List UInt8) : CodePoint × Nat :=
  ([0, 1, 2, 3].findSome? (charWith? b bs)).getD (ofByte b, 0)

def pointsOf : List UInt8 → List CodePoint
  | [] => []
  | b :: bs => (firstPoint b bs).1 :: pointsOf (bs.drop (firstPoint b bs).2)
termination_by bs => bs.length

/-- The text that a host reads from bytes. -/
def ofHostBytes (bs : List UInt8) : Text := ⟨pointsOf bs⟩

/-- A text after a host has kept it as bytes and read it again. -/
def throughHost? (t : Text) : Option Text := t.hostBytes?.map ofHostBytes

/-- How many bytes a host keeps for a text. -/
def hostSize (t : Text) : Nat := (t.hostBytes?.getD []).length

theorem utf8EncodeChar_of_charOf? {bs : List UInt8} {c : Char} (h : charOf? bs = some c) :
    String.utf8EncodeChar c = bs := by
  rw [charOf?] at h
  split at h
  · next e => cases h; exact e
  · cases h

theorem charOf?_of_lt {b : UInt8} (h : b.toNat < 0x80) : charOf? [b] = some (.ofNat b.toNat) := by
  have hv : b.toNat.isValidChar := .inl (by omega)
  have hn : (Char.ofNat b.toNat).toNat = b.toNat := by rw [Char.ofNat, dif_pos hv]; rfl
  have hs : (Char.ofNat b.toNat).utf8Size = 1 := by
    rw [Char.utf8Size_eq_one_iff, UInt32.le_iff_toNat_le]
    show (Char.ofNat b.toNat).toNat ≤ 127
    omega
  have he : String.utf8EncodeChar (.ofNat b.toNat) = [b] := by
    rw [String.utf8EncodeChar_eq_singleton hs]
    show [UInt8.ofNat (Char.ofNat b.toNat).toNat] = [b]
    rw [hn, UInt8.ofNat_toNat]
  exact if_pos he

theorem pointBytes?_ofByte {b : UInt8} (h : 0x80 ≤ b.toNat) :
    pointBytes? (ofByte b) = some [b] := by
  rw [ofByte, pointBytes?, if_pos ⟨Nat.add_le_add_left h _, Nat.add_lt_add_left b.toNat_lt _⟩]
  simp

theorem pointBytes?_firstPoint (b : UInt8) (bs : List UInt8) :
    pointBytes? (firstPoint b bs).1 = some (b :: bs.take (firstPoint b bs).2) := by
  rw [firstPoint]
  cases h : [0, 1, 2, 3].findSome? (charWith? b bs) with
  | some r =>
    obtain ⟨n, -, hn⟩ := List.exists_of_findSome?_eq_some h
    obtain ⟨c, hc, rfl⟩ := Option.map_eq_some_iff.1 hn
    exact congrArg some (utf8EncodeChar_of_charOf? hc)
  | none =>
    refine pointBytes?_ofByte (Nat.le_of_not_lt fun hb => ?_)
    have h0 : charWith? b bs 0 = none := List.findSome?_eq_none_iff.1 h 0 (by simp)
    rw [charWith?, List.take_zero, charOf?_of_lt hb] at h0
    cases h0

theorem pointsBytes?_pointsOf (bs : List UInt8) : pointsBytes? (pointsOf bs) = some bs := by
  fun_induction pointsOf bs with
  | case1 => rfl
  | case2 b bs ih =>
    rw [pointsBytes?, pointBytes?_firstPoint, ih]
    simp

/-- Reading bytes loses nothing. -/
theorem hostBytes?_ofHostBytes (bs : List UInt8) : (ofHostBytes bs).hostBytes? = some bs :=
  pointsBytes?_pointsOf bs

end QuadraticVoting.Text
