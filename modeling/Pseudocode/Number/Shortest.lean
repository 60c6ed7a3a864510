import Pseudocode.Number.Binary
import Pseudocode.Text.Basic

/-!
# The shortest decimal of a number

Among the decimals that read back as a given number, the one with the fewest digits is printed, and
of those the nearest to the number, a tie going to the even digit. The search goes through the grids
of the powers of ten, coarsest first; on a grid only the two neighbours of the number can be the
answer. Every candidate is tested by rounding it, so what is printed reads back by construction.
-/

namespace Pseudocode

namespace Number

/-- A finite magnitude as a quotient of natural numbers. -/
def asQuotient (x : Number) : Nat × Nat :=
  (x.significand * Nat.pow 2 x.exponent.toNat, Nat.pow 2 (-x.exponent).toNat)

/-- The decimal `digits · 10 ^ exponent`. -/
structure Decimal where
  digits : Nat
  exponent : Int
  deriving DecidableEq, Repr

/-- Whether a decimal is rounded to the magnitude of a number. -/
def readsBack (x : Number) (d : Decimal) : Bool :=
  decimalBits d.digits d.exponent == x.magnitudeBits

/-- The decimal on the grid of `10 ^ k` that is printed for a number, if one reads back. -/
def onGrid? (x : Number) (k : Int) : Option Decimal :=
  let num := x.asQuotient.1 * Nat.pow 10 (-k).toNat
  let den := x.asQuotient.2 * Nat.pow 10 k.toNat
  let below : Decimal := ⟨num / den, k⟩
  let above : Decimal := ⟨num / den + 1, k⟩
  let nearer : Decimal := ⟨roundQuotient num den, k⟩
  match x.readsBack below, x.readsBack above with
  | true, true => some nearer
  | true, false => some below
  | false, true => some above
  | false, false => none

/-- All digits of a finite magnitude. -/
def exactDecimal (x : Number) : Decimal :=
  ⟨x.significand * Nat.pow 2 x.exponent.toNat * Nat.pow 5 (-x.exponent).toNat, min x.exponent 0⟩

/-- The first decimal that reads back on one of the `count` grids from `10 ^ k` downward. -/
def searchGrids (x : Number) : (count : Nat) → (k : Int) → Decimal
  | 0, _ => x.exactDecimal
  | count + 1, k =>
    match x.onGrid? k with
    | some d => d
    | none => searchGrids x count (k - 1)

/-- An exponent whose power of ten is above a finite magnitude. -/
def gridAbove (x : Number) : Int := (x.significand.log2 + 1 + x.exponent) * 30103 / 100000 + 1

/-- The decimal with the fewest digits that reads back, for a finite number other than zero. -/
def shortest (x : Number) : Decimal := searchGrids x 24 x.gridAbove

/-- A decimal written without an exponent. -/
def Decimal.positional (d : Decimal) : List Char :=
  let ds := Nat.toDigits 10 d.digits
  let point : Int := ds.length + d.exponent
  if 0 ≤ d.exponent then ds ++ List.replicate d.exponent.toNat '0'
  else if 0 < point then ds.take point.toNat ++ '.' :: ds.drop point.toNat
  else '0' :: '.' :: (List.replicate (-point).toNat '0' ++ ds)

/-- A number as characters. The sign of zero is kept. -/
def chars (x : Number) : List Char :=
  if x.isNaN then "NaN".toList
  else
    let magnitude :=
      if x.isInf then "Infinity".toList
      else if x == 0 then ['0']
      else x.shortest.positional
    if x.isNegative then '-' :: magnitude else magnitude

/-- A number as the language prints it. Zero has no sign. -/
def text (x : Number) : Text := if x == 0 then Text.ofString "0" else Text.ofChars x.chars

end Number

end Pseudocode
