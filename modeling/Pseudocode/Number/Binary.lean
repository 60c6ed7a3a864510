import Pseudocode.Number.Word

/-!
# Numbers and their bits

The language has one kind of number, the IEEE double. Its bits decide everything that is done with
numbers apart from arithmetic: reading, printing, rounding to integers. A finite number is `±
significand · 2 ^ exponent`, and `nearestBits` goes the other way: it rounds a quotient of natural
numbers to the nearest double, ties to the even one.

The magnitude bits of the doubles are in the order of the doubles, so rounding is one addition: the
rounded significand is added to the exponent field, and a carry out of the significand moves on to
the next exponent by itself.
-/

namespace Pseudocode

/-- The numbers of the language. -/
abbrev Number := Float

namespace Number

/-- The bits of a number without the sign. -/
def magnitudeBits (x : Number) : Nat := x.toBits.toNat % Word.half

/-- Whether the sign bit is set, which it also is in the negative zero. -/
def isNegative (x : Number) : Bool := decide (Word.half ≤ x.toBits.toNat)

/-- The magnitude bits of the two infinities. -/
def infinityBits : Nat := 0x7FF0000000000000

/-- The number with the given sign and magnitude bits. -/
def ofMagnitude (negative : Bool) (bits : Nat) : Number :=
  Float.ofBits (UInt64.ofNat (bits + if negative then Word.half else 0))

/-- The infinity of the given sign. -/
def infinity (negative : Bool) : Number := ofMagnitude negative infinityBits

/-- The number that is no number. -/
def nan : Number := Float.ofBits 0x7FF8000000000000

/-- Whether a number is neither an infinity nor `nan`. -/
def isFiniteNumber (x : Number) : Bool := decide (x.magnitudeBits < infinityBits)

/-- What the lowest bit of the exponent field counts, and the bit that a significand has in front of
its field: two to the power of 52. -/
def fieldUnit : Nat := 4503599627370496

/-- The integer `m` of a finite number `± m · 2 ^ e`. -/
def significand (x : Number) : Nat :=
  if x.magnitudeBits / fieldUnit = 0 then x.magnitudeBits
  else x.magnitudeBits % fieldUnit + fieldUnit

/-- The exponent `e` of a finite number `± m · 2 ^ e`. -/
def exponent (x : Number) : Int := (max (x.magnitudeBits / fieldUnit) 1 : Nat) - 1075

/-- The quotient of two natural numbers, rounded to the nearest one, a half to the even one. -/
def roundQuotient (num den : Nat) : Nat :=
  let q := num / den
  let r := num % den
  if 2 * r > den || (2 * r == den && q % 2 == 1) then q + 1 else q

/-- The largest `l` with `2 ^ l ≤ num / den`, for positive `num` and `den`. -/
def floorLog2 (num den : Nat) : Int :=
  let l : Int := num.log2 - den.log2
  if den * Nat.pow 2 l.toNat ≤ num * Nat.pow 2 (-l).toNat then l else l - 1

/-- The magnitude bits of the double nearest to `num / den`, those of the infinity from half a step
above the largest double on. -/
def nearestBits (num den : Nat) : Nat :=
  if num = 0 then 0
  else
    let e := max (floorLog2 num den - 52) (-1074)
    let q := roundQuotient (num * Nat.pow 2 (-e).toNat) (den * Nat.pow 2 e.toNat)
    min infinityBits (q + (e + 1074).toNat * fieldUnit)

/-- The magnitude bits of the double nearest to `digits · 10 ^ exponent`. Far outside the range of
the doubles nothing is computed. -/
def decimalBits (digits : Nat) (exponent : Int) : Nat :=
  let size : Int := exponent + (Nat.toDigits 10 digits).length
  if digits = 0 ∨ size < -400 then 0
  else if 400 < size then infinityBits
  else nearestBits (digits * Nat.pow 10 exponent.toNat) (Nat.pow 10 (-exponent).toNat)

/-- The magnitude bits of the double nearest to `digits · 2 ^ exponent`. -/
def binaryBits (digits : Nat) (exponent : Int) : Nat :=
  let size : Int := exponent + digits.log2
  if digits = 0 ∨ size < -1200 then 0
  else if 1200 < size then infinityBits
  else nearestBits (digits * Nat.pow 2 exponent.toNat) (Nat.pow 2 (-exponent).toNat)

/-- The double nearest to a natural number. -/
def ofNat (n : Nat) : Number := ofMagnitude false (nearestBits n 1)

/-- The double nearest to an integer. -/
def ofInt (i : Int) : Number := ofMagnitude (decide (i < 0)) (nearestBits i.natAbs 1)

/-- The integer part of the magnitude of a finite number. -/
def natPart (x : Number) : Nat :=
  if 0 ≤ x.exponent then x.significand * Nat.pow 2 x.exponent.toNat
  else x.significand / Nat.pow 2 (-x.exponent).toNat

/-- Whether a finite number has digits after the point. -/
def hasFraction (x : Number) : Bool :=
  decide (x.exponent < 0) && x.significand % Nat.pow 2 (-x.exponent).toNat != 0

/-- A magnitude with a sign, zero included. -/
def signed (negative : Bool) (x : Number) : Number := if negative then -x else x

/-- The next integer toward zero. -/
def trunc (x : Number) : Number :=
  if x.isFiniteNumber && x.hasFraction then signed x.isNegative (ofNat x.natPart) else x

/-- The largest integer that is not above. -/
def floor (x : Number) : Number :=
  if x.isFiniteNumber && x.hasFraction then
    signed x.isNegative (ofNat (if x.isNegative then x.natPart + 1 else x.natPart))
  else x

/-- The smallest integer that is not below. -/
def ceil (x : Number) : Number :=
  if x.isFiniteNumber && x.hasFraction then
    signed x.isNegative (ofNat (if x.isNegative then x.natPart else x.natPart + 1))
  else x

/-- The integer nearest to a number; a half goes up. -/
def round (x : Number) : Number := floor (x + 0.5)

/-- The magnitude of a number as a number. -/
def abs (x : Number) : Number := if x.isNaN then x else ofMagnitude false x.magnitudeBits

/-- Whether a number is equal to its integer part. Infinities are; `nan` is not. -/
def isIntegral (x : Number) : Bool := x == trunc x

/-- The ratio of the circumference of a circle to its diameter. -/
def pi : Number := Float.ofBits 0x400921FB54442D18

/-- The base of the natural logarithm. -/
def euler : Number := Float.ofBits 0x4005BF0A8B145769

/-- The logarithm to base ten, as the natural logarithm times the reciprocal of that of ten. -/
def log10 (x : Number) : Number := Float.log x * Float.ofBits 0x3FDBCB7B1526E50E

end Number

end Pseudocode
