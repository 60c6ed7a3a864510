import Pseudocode.Number.Binary
import Pseudocode.Text.Letter
import Pseudocode.Text.Utf8

/-!
# Numerals

What can be read as a number: an optional sign and then digits with at most one point and an
optional decimal exponent; or hexadecimal digits after `0x` with a binary exponent, which they must
have; or `inf`, `infinity` (both with an optional sign) and `nan` (without one), in any mixture of
cases. Underscores may stand between two digits, and between `0x` and a digit.

A numeral is first taken apart into what it denotes and then rounded. A numeral too large for a
double is refused; one too small is zero.
-/

namespace Pseudocode

/-- What a numeral denotes, before rounding. -/
inductive Numeral where
  | decimal (negative : Bool) (digits : Nat) (exponent : Int)
  | binary (negative : Bool) (digits : Nat) (exponent : Int)
  | infinity (negative : Bool)
  | nan
  deriving DecidableEq, Repr

namespace Numeral

/-- The ASCII letter in lower case, any other character as it is. -/
def lowerAscii (c : Char) : Char := if 'A' ≤ c ∧ c ≤ 'Z' then Char.ofNat (c.toNat + 32) else c

/-- Whether a character is a hexadecimal digit. -/
def isHexDigit (c : Char) : Bool :=
  isDigit c || (decide ('a' ≤ lowerAscii c) && decide (lowerAscii c ≤ 'f'))

/-- The value of a hexadecimal digit. -/
def digitValue (c : Char) : Nat :=
  if isDigit c then c.toNat - 48 else (lowerAscii c).toNat - 87

/-- The number that digits spell in a base, most significant digit first. -/
def ofDigits (base : Nat) (cs : List Char) : Nat :=
  cs.foldl (fun n c => base * n + digitValue c) 0

/-- A sign, if there is one, and what follows it. -/
def splitSign : List Char → Bool × List Char
  | '-' :: rest => (true, rest)
  | '+' :: rest => (false, rest)
  | rest => (false, rest)

/-- Digits with at most one point among them, as the digits before the point, those after it, and
the rest. There must be a digit. -/
def mantissa? (isDigit : Char → Bool) (cs : List Char) :
    Option (List Char × List Char × List Char) :=
  let whole := cs.takeWhile isDigit
  let rest := cs.dropWhile isDigit
  let (fraction, rest) := match rest with
    | '.' :: r => (r.takeWhile isDigit, r.dropWhile isDigit)
    | r => ([], r)
  if whole.isEmpty && fraction.isEmpty then none else some (whole, fraction, rest)

/-- The exponent that the whole of `cs` spells after its sign: at least one digit. -/
def exponent? (cs : List Char) : Option Int :=
  let (negative, digits) := splitSign cs
  if digits.isEmpty || !digits.all isDigit then none
  else some (if negative then -(ofDigits 10 digits : Int) else ofDigits 10 digits)

/-- Decimal digits with an optional exponent. -/
def decimal? (negative : Bool) (cs : List Char) : Option Numeral := do
  let (whole, fraction, rest) ← mantissa? isDigit cs
  let e ← match rest with
    | [] => some 0
    | c :: rest => if lowerAscii c == 'e' then exponent? rest else none
  return .decimal negative (ofDigits 10 (whole ++ fraction)) (e - fraction.length)

/-- Hexadecimal digits with a binary exponent. -/
def binary? (negative : Bool) (cs : List Char) : Option Numeral := do
  let (whole, fraction, rest) ← mantissa? isHexDigit cs
  let e ← match rest with
    | [] => none
    | c :: rest => if lowerAscii c == 'p' then exponent? rest else none
  return .binary negative (ofDigits 16 (whole ++ fraction)) (e - 4 * fraction.length)

/-- Whether each underscore has a digit (or the mark of the base, as `before` tells for the first
character) in front of it and a digit after it. -/
def underscoresSeparate (isDigit : Char → Bool) : (before : Bool) → List Char → Bool
  | _, [] => true
  | before, '_' :: rest =>
    before && (match rest with
      | [] => false
      | d :: _ => isDigit d) && underscoresSeparate isDigit false rest
  | _, c :: rest => underscoresSeparate isDigit (isDigit c) rest

/-- A numeral made of digits, without its sign. -/
def digits? (negative : Bool) (cs : List Char) : Option Numeral :=
  match cs with
  | '0' :: x :: rest =>
    if lowerAscii x == 'x' then
      if underscoresSeparate isHexDigit true rest then binary? negative (rest.filter (· != '_'))
      else none
    else if underscoresSeparate isDigit false cs then decimal? negative (cs.filter (· != '_'))
    else none
  | _ =>
    if underscoresSeparate isDigit false cs then decimal? negative (cs.filter (· != '_')) else none

/-- The numeral that the whole of `cs` spells. -/
def parse? (cs : List Char) : Option Numeral :=
  if cs.map lowerAscii == "nan".toList then some .nan
  else
    let (negative, body) := splitSign cs
    let word := body.map lowerAscii
    if word == "inf".toList || word == "infinity".toList then some (.infinity negative)
    else digits? negative body

/-- The number a numeral denotes, unless it is too large for a double. -/
def value? : Numeral → Option Number
  | .decimal negative digits e => bounded? negative (Number.decimalBits digits e)
  | .binary negative digits e => bounded? negative (Number.binaryBits digits e)
  | .infinity negative => some (Number.infinity negative)
  | .nan => some Number.nan
where
  /-- The number with these magnitude bits, unless they are those of an infinity. -/
  bounded? (negative : Bool) (bits : Nat) : Option Number :=
    if bits < Number.infinityBits then some (Number.ofMagnitude negative bits) else none

end Numeral

namespace Number

/-- The number that characters spell. -/
def ofChars? (cs : List Char) : Option Number := Numeral.parse? cs >>= Numeral.value?

/-- The number that a text spells. -/
def ofText? (t : Text) : Option Number := ofChars? t.chars

end Number

end Pseudocode
