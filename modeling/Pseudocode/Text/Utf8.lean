import Pseudocode.Text.Basic

/-!
# The characters of a text

Reading bytes as UTF-8 never fails: a byte that belongs to no well-formed sequence stands for the
replacement character on its own, so every text has a list of characters. Writing characters and
reading them again gives the same characters.
-/

namespace Pseudocode

namespace Utf8

/-- A byte that continues a sequence. -/
def isTail (b : UInt8) : Bool := 0x80 ≤ b && b ≤ 0xBF

/-- The six low bits, which a continuation byte contributes. -/
def low (b : UInt8) : Nat := b.toNat % 64

/-- Two bytes that spell one character. -/
def isPair (a b : UInt8) : Bool := 0xC2 ≤ a && a ≤ 0xDF && isTail b

/-- Three bytes that spell one character: the shortest form, and no surrogate. -/
def isTriple (a b c : UInt8) : Bool :=
  (if a == 0xE0 then 0xA0 ≤ b && b ≤ 0xBF
   else if a == 0xED then 0x80 ≤ b && b ≤ 0x9F
   else 0xE1 ≤ a && a ≤ 0xEF && isTail b) && isTail c

/-- Four bytes that spell one character: the shortest form, at most the last code point. -/
def isQuad (a b c d : UInt8) : Bool :=
  (if a == 0xF0 then 0x90 ≤ b && b ≤ 0xBF
   else if a == 0xF4 then 0x80 ≤ b && b ≤ 0x8F
   else 0xF1 ≤ a && a ≤ 0xF3 && isTail b) && isTail c && isTail d

/-- The character a pair spells. -/
def pairChar (a b : UInt8) : Char := Char.ofNat (a.toNat % 32 * 64 + low b)

/-- The character a triple spells. -/
def tripleChar (a b c : UInt8) : Char := Char.ofNat (a.toNat % 16 * 4096 + low b * 64 + low c)

/-- The character a quadruple spells. -/
def quadChar (a b c d : UInt8) : Char :=
  Char.ofNat (a.toNat % 8 * 262144 + low b * 4096 + low c * 64 + low d)

/-- The character that a byte outside every well-formed sequence stands for. -/
def replacement : Char := Char.ofNat 0xFFFD

/-- The character that a byte starts, and how many of the bytes after it belong to it. -/
def first (a : UInt8) (rest : List UInt8) : Char × Nat :=
  if a < 0x80 then (Char.ofNat a.toNat, 0)
  else match rest with
    | [] => (replacement, 0)
    | b :: rest =>
      if isPair a b then (pairChar a b, 1)
      else match rest with
        | [] => (replacement, 0)
        | c :: rest =>
          if isTriple a b c then (tripleChar a b c, 2)
          else match rest with
            | [] => (replacement, 0)
            | d :: _ => if isQuad a b c d then (quadChar a b c d, 3) else (replacement, 0)

/-- The characters of a byte sequence whose first `skip` bytes are already accounted for. -/
def decodeAfter : Nat → List UInt8 → List Char
  | _, [] => []
  | skip + 1, _ :: rest => decodeAfter skip rest
  | 0, a :: rest => (first a rest).1 :: decodeAfter (first a rest).2 rest

/-- The characters of a byte sequence. -/
def decode (bytes : List UInt8) : List Char := decodeAfter 0 bytes

/-- The characters of a byte sequence with the bytes that spell each, where the first `skip` bytes
are already accounted for. -/
def segmentsAfter : Nat → List UInt8 → List (Char × List UInt8)
  | _, [] => []
  | skip + 1, _ :: rest => segmentsAfter skip rest
  | 0, a :: rest =>
    ((first a rest).1, a :: rest.take (first a rest).2) :: segmentsAfter (first a rest).2 rest

end Utf8

namespace Text

/-- The characters of a text with the bytes that spell each. -/
def segments (t : Text) : List (Char × List UInt8) := Utf8.segmentsAfter 0 t.bytes

/-- The characters of a text, one replacement character for each byte that fits nowhere. -/
def chars (t : Text) : List Char := Utf8.decode t.bytes

/-- How many characters a text has. -/
def length (t : Text) : Nat := t.chars.length

/-- Whether the bytes are the UTF-8 form of the characters they spell. -/
def isUtf8 (t : Text) : Bool := ofChars t.chars == t

/-- Apply a function to every character. -/
def mapChars (f : Char → Char) (t : Text) : Text := ofChars (t.chars.map f)

end Text

end Pseudocode
