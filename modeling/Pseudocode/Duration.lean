import Pseudocode.Number.Binary
import Pseudocode.Text.Letter
import Pseudocode.Text.Radix

/-!
# Durations

A duration is a whole number of nanoseconds that fits in 64 bits with a sign. It is written as a row
of numbers with units, such as `1h15m30.5s`, after an optional sign. The number of a unit may have a
fraction; what the fraction amounts to is computed with doubles and cut to nanoseconds.
-/

namespace Pseudocode

/-- A span of time. -/
structure Duration where
  nanoseconds : Int
  deriving DecidableEq, Repr, Inhabited

/-- Why a text is no duration. -/
inductive DurationError where
  | invalid (text : Text)
  | missingUnit (text : Text)
  | unknownUnit (unit text : Text)
  deriving DecidableEq, Repr

namespace DurationError

/-- A byte as error messages show it: in hexadecimal unless it is printable ASCII. -/
def shownByte (b : UInt8) : List UInt8 :=
  if b < 32 ∨ 128 ≤ b then (Text.ofChars ('\\' :: 'x' :: Text.lowerHex 2 b.toNat)).bytes
  else if b = 34 ∨ b = 92 then [92, b]
  else [b]

/-- A text as error messages show it. -/
def shown (t : Text) : Text := "\"" ++ ⟨t.bytes.flatMap shownByte⟩ ++ "\""

/-- The wording of an error. -/
def message : DurationError → Text
  | invalid t => "time: invalid duration " ++ shown t
  | missingUnit t => "time: missing unit in duration " ++ shown t
  | unknownUnit u t => "time: unknown unit " ++ shown u ++ " in duration " ++ shown t

end DurationError

namespace Duration

/-- The span without length. -/
def zero : Duration := ⟨0⟩

/-- The number of nanoseconds above which none fit: one more than the greatest positive count. -/
def limit : Nat := Word.half

/-- The units and their nanoseconds. A microsecond has three spellings. -/
def units : List (Text × Nat) :=
  [("ns", 1), ("us", 1000), ("µs", 1000), ("μs", 1000), ("ms", 1000000), ("s", 1000000000),
   ("m", 60000000000), ("h", 3600000000000)]

/-- Whether a byte is a decimal digit. -/
def isDigitByte (b : UInt8) : Bool := 48 ≤ b && b ≤ 57

/-- The number that digits spell. -/
def digitsValue (ds : List UInt8) : Nat := ds.foldl (fun n b => 10 * n + (b.toNat - 48)) 0

/-- The digits of a fraction that are taken into account: as many as stay within the limit. -/
def fractionDigits : (value count : Nat) → List UInt8 → Nat × Nat
  | value, count, [] => (value, count)
  | value, count, b :: rest =>
    let next := 10 * value + (b.toNat - 48)
    if (limit - 1) / 10 < value ∨ limit < next then (value, count)
    else fractionDigits next (count + 1) rest

/-- What a fraction of a unit amounts to. -/
def fractionPart (unit : Nat) (ds : List UInt8) : Nat :=
  let (value, count) := fractionDigits 0 0 ds
  if value = 0 then 0
  else (Number.ofNat value * (Number.ofNat unit / Number.ofNat (Nat.pow 10 count))).natPart

/-- Why a number with its unit cannot be read. -/
inductive TermError where
  | malformed
  | noUnit
  | badUnit (unit : Text)

/-- The first number with its unit, in nanoseconds, and what follows it. -/
def term (cs : List UInt8) : Except TermError (Nat × List UInt8) :=
  let whole := cs.takeWhile isDigitByte
  let rest := cs.dropWhile isDigitByte
  let (fraction, rest) := match rest with
    | 46 :: r => (r.takeWhile isDigitByte, r.dropWhile isDigitByte)
    | r => ([], r)
  if whole.isEmpty ∧ fraction.isEmpty ∨ limit < digitsValue whole then .error .malformed
  else
    let isUnitByte (b : UInt8) : Bool := b != 46 && !isDigitByte b
    let unit : Text := ⟨rest.takeWhile isUnitByte⟩
    if unit.isEmpty then .error .noUnit
    else match units.lookup unit with
      | none => .error (.badUnit unit)
      | some size =>
        if limit / size < digitsValue whole then .error .malformed
        else
          let value := digitsValue whole * size + fractionPart size fraction
          if limit < value then .error .malformed
          else .ok (value, rest.dropWhile isUnitByte)

/-- The sum of numbers with units, starting from `total`. The sum wraps around as words do. -/
def terms : (fuel total : Nat) → List UInt8 → Except TermError Nat
  | _, total, [] => .ok total
  | 0, _, _ => .error .malformed
  | fuel + 1, total, cs => do
    let (value, rest) ← term cs
    let sum := (total + value) % Word.count
    if limit < sum then .error .malformed else terms fuel sum rest

/-- The duration that a text spells. A zero needs no unit. -/
def ofText (t : Text) : Except DurationError Duration :=
  let (negative, body) := match t.bytes with
    | 45 :: rest => (true, rest)
    | 43 :: rest => (false, rest)
    | rest => (false, rest)
  if body = [48] then .ok zero
  else if body.isEmpty then .error (.invalid t)
  else match terms body.length 0 body with
    | .error .malformed => .error (.invalid t)
    | .error .noUnit => .error (.missingUnit t)
    | .error (.badUnit u) => .error (.unknownUnit u t)
    | .ok n =>
      if negative then .ok ⟨-n⟩
      else if limit ≤ n then .error (.invalid t)
      else .ok ⟨n⟩

/-- A number with as many decimal places as `places`, without zeros at its end. -/
def withFraction (n places : Nat) : Text :=
  let unit := Nat.pow 10 places
  let fraction := Nat.toDigits 10 (n % unit)
  let padded := List.replicate (places - fraction.length) '0' ++ fraction
  let kept := (padded.reverse.dropWhile (· == '0')).reverse
  if n % unit = 0 then Text.ofNat (n / unit)
  else Text.ofNat (n / unit) ++ "." ++ Text.ofChars kept

/-- A span of at least a second in hours, minutes and seconds, from the first that is not zero. -/
def clockText (n : Nat) : Text :=
  let second := 1000000000
  let seconds := withFraction (n % (60 * second)) 9 ++ "s"
  let minutes := n / (60 * second)
  if minutes = 0 then seconds
  else if minutes / 60 = 0 then Text.ofNat minutes ++ "m" ++ seconds
  else Text.ofNat (minutes / 60) ++ "h" ++ Text.ofNat (minutes % 60) ++ "m" ++ seconds

/-- A span without its sign. Below a second, the largest unit that leaves a whole part is used. -/
def magnitudeText (n : Nat) : Text :=
  if n = 0 then "0s"
  else if n < 1000 then Text.ofNat n ++ "ns"
  else if n < 1000000 then withFraction n 3 ++ "µs"
  else if n < 1000000000 then withFraction n 6 ++ "ms"
  else clockText n

/-- A duration as text. -/
def text (d : Duration) : Text :=
  if d.nanoseconds < 0 then "-" ++ magnitudeText d.nanoseconds.natAbs
  else magnitudeText d.nanoseconds.natAbs

end Duration

end Pseudocode
