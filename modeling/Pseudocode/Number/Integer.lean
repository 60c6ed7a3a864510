import Pseudocode.Number.Numeral

/-!
# Integers of 64 bits

An integer is written in decimal, or after `0x`, `0o`, `0b` or `0` in another base, with an optional
sign. Underscores may separate digits, and the first digit from the mark of the base.
-/

namespace Pseudocode

/-- Why characters spell no integer of 64 bits. -/
inductive IntegerFault where
  | malformed
  | outOfRange
  deriving DecidableEq, Repr

namespace Integer

/-- The value of a digit, of which letters may be more than any base has. -/
def digit? (c : Char) : Option Nat :=
  let l := Numeral.lowerAscii c
  if isDigit c then some (c.toNat - 48)
  else if 'a' ≤ l ∧ l ≤ 'z' then some (l.toNat - 87)
  else none

/-- The number that digits of a base spell, without underscores. The first thing wrong counts. -/
def scan (base : Nat) : (value : Nat) → List Char → Except IntegerFault Nat
  | value, [] => .ok value
  | value, '_' :: rest => scan base value rest
  | value, c :: rest =>
    match digit? c with
    | none => .error .malformed
    | some d =>
      if base ≤ d then .error .malformed
      else if Word.count ≤ value * base + d then .error .outOfRange
      else scan base (value * base + d) rest

/-- The base that a mark stands for. -/
def baseOf? (mark : Char) : Option Nat :=
  match Numeral.lowerAscii mark with
  | 'x' => some 16
  | 'o' => some 8
  | 'b' => some 2
  | _ => none

/-- The digits of a base, with a check of the underscores in the part where they matter. -/
def digits (base : Nat) (cs : List Char) (separated : Bool) : Except IntegerFault Nat := do
  let value ← scan base 0 cs
  if separated then .ok value else .error .malformed

/-- An integer without its sign. -/
def magnitude (cs : List Char) : Except IntegerFault Nat :=
  let plain := Numeral.underscoresSeparate isDigit false cs
  match cs with
  | [] => .error .malformed
  | '0' :: mark :: d :: rest =>
    match baseOf? mark with
    | some base =>
      let isBaseDigit := if base = 16 then Numeral.isHexDigit else isDigit
      digits base (d :: rest) (Numeral.underscoresSeparate isBaseDigit true (d :: rest))
    | none => digits 8 (mark :: d :: rest) plain
  | '0' :: rest => digits 8 rest plain
  | cs => digits 10 cs plain

/-- The integer that the whole of `cs` spells. -/
def ofChars (cs : List Char) : Except IntegerFault Int := do
  let (negative, body) := Numeral.splitSign cs
  let n ← magnitude body
  if negative then (if n ≤ Word.half then .ok (-n) else .error .outOfRange)
  else if n < Word.half then .ok n
  else .error .outOfRange

end Integer

end Pseudocode
