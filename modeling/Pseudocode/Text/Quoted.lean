import Pseudocode.Text.Printable
import Pseudocode.Text.Radix
import Pseudocode.Text.Utf8

/-!
# Quoted texts

A text between double quotes that shows every byte: printable characters stand as they are, the
usual controls have a letter after a backslash, and everything else is written by its code point. A
byte that spells no character is written by its value.
-/

namespace Pseudocode

namespace Text

/-- The letter that stands for a control character after a backslash. -/
def controlLetter? (c : Char) : Option Char :=
  match c.toNat with
  | 7 => some 'a'
  | 8 => some 'b'
  | 9 => some 't'
  | 10 => some 'n'
  | 11 => some 'v'
  | 12 => some 'f'
  | 13 => some 'r'
  | _ => none

/-- A character between double quotes. -/
def quotedChar (c : Char) : List Char :=
  if c = '"' ∨ c = '\\' then ['\\', c]
  else if isPrintable c then [c]
  else match controlLetter? c with
    | some letter => ['\\', letter]
    | none =>
      if c.toNat < 0x80 then '\\' :: 'x' :: lowerHex 2 c.toNat
      else if c.toNat < 0x10000 then '\\' :: 'u' :: lowerHex 4 c.toNat
      else '\\' :: 'U' :: lowerHex 8 c.toNat

/-- A character of a text between double quotes. A byte that spells none is written by its value. -/
def quotedSegment : Char × List UInt8 → List Char
  | (c, [b]) =>
    if c = Utf8.replacement then '\\' :: 'x' :: lowerHex 2 b.toNat else quotedChar c
  | (c, _) => quotedChar c

/-- A text between double quotes. -/
def quoted (t : Text) : Text := ofChars ('"' :: t.segments.flatMap quotedSegment ++ ['"'])

end Text

end Pseudocode
