import Pseudocode.Number.Numeral
import Pseudocode.Text.Blank
import Pseudocode.Value.Basic

/-!
# Values from typed lines

A line that spells a decimal number, or `Infinity`, is read as that number; any other line is the
text it is, blanks included. Of the numerals that the language can convert, the hexadecimal ones,
those with underscores and the other spellings of infinity are texts here.
-/

namespace Pseudocode

namespace Value

/-- The characters that decimal numerals are made of. -/
def decimalChars : List Char := "0123456789+-.eE".toList

/-- Whether characters can only be read as a decimal numeral, or spell `Infinity` after signs. -/
def isDecimal (cs : List Char) : Bool :=
  cs.dropWhile (fun c => c == '+' || c == '-') == "Infinity".toList ||
    (cs.all decimalChars.contains && cs.any isDigit)

/-- The value of a line that was typed. -/
def ofInput (line : Text) : Value :=
  let trimmed := trimWhile isBlank line.chars
  if isDecimal trimmed then
    match Number.ofChars? trimmed with
    | some n => if n.isNaN then .text line else .number n
    | none => .text line
  else .text line

end Value

end Pseudocode
