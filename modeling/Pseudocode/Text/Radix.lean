import Pseudocode.Text.Basic

/-!
# Digits with a fixed width

Hexadecimal digits and padding, for code points, bytes and line numbers.
-/

namespace Pseudocode

namespace Text

/-- Hexadecimal digits in lower case, at least `width` of them. -/
def lowerHex (width n : Nat) : List Char :=
  let ds := Nat.toDigits 16 n
  List.replicate (width - ds.length) '0' ++ ds

/-- Hexadecimal digits in upper case, at least `width` of them. -/
def upperHex (width n : Nat) : List Char := (lowerHex width n).map Char.toUpper

/-- Spaces in front of a text up to a width, counted in bytes. -/
def padLeft (width : Nat) (t : Text) : Text :=
  replicate (width - t.bytes.length) " " ++ t

end Text

end Pseudocode
