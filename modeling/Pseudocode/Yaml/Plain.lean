import Pseudocode.Number.Numeral
import Pseudocode.Yaml.Timestamp

/-!
# What unquoted words mean

An unquoted word of a YAML document is a string unless it has the form of something else: nothing, a
truth value, a number or a date. A string of such a form must be quoted.
-/

namespace Pseudocode.Yaml.Plain

open Numeral

/-- Words with a fixed meaning. -/
def reserved : List String :=
  ["", "~", "null", "Null", "NULL", "true", "True", "TRUE", "false", "False", "FALSE",
   ".nan", ".NaN", ".NAN", ".inf", ".Inf", ".INF", "+.inf", "+.Inf", "+.INF",
   "-.inf", "-.Inf", "-.INF"]

/-- Digits of a base, at least one. -/
def digitsOf? (base : Nat) (cs : List Char) : Option Nat :=
  if !cs.isEmpty && cs.all (fun c => isHexDigit c && decide (digitValue c < base)) then
    some (ofDigits base cs)
  else none

/-- An integer without its sign: decimal, or after `0x`, `0o`, `0b` or `0` in another base. -/
def magnitude? : List Char → Option Nat
  | ['0'] => some 0
  | '0' :: x :: rest =>
    if lowerAscii x == 'x' then digitsOf? 16 rest
    else if lowerAscii x == 'o' then digitsOf? 8 rest
    else if lowerAscii x == 'b' then digitsOf? 2 rest
    else digitsOf? 8 (x :: rest)
  | cs => digitsOf? 10 cs

/-- Whether a signed integer fits into 64 bits. An unsigned one may use all of them. -/
def fits (cs : List Char) (magnitude : Nat) : Bool :=
  match cs with
  | '-' :: _ => decide (magnitude ≤ Word.half)
  | '+' :: _ => decide (magnitude < Word.half)
  | _ => decide (magnitude < Word.count)

/-- Whether the whole of `cs` is an integer of at most 64 bits. -/
def isInteger (cs : List Char) : Bool :=
  match magnitude? (splitSign cs).2 with
  | some n => fits cs n
  | none => false

/-- Whether the whole of `cs` is a binary or octal integer with a sign after the mark of the
base. -/
def isInnerSigned (cs : List Char) : Bool :=
  let inner (base : Nat) (digits : List Char) : Bool :=
    match digitsOf? base (splitSign digits).2 with
    | some n => fits digits n
    | none => false
  match cs with
  | '0' :: 'b' :: digits => inner 2 digits
  | '0' :: 'o' :: digits => inner 8 digits
  | _ => false

/-- Whether the whole of `cs` is a decimal fraction with an optional exponent that a double can
hold. -/
def isFloat (cs : List Char) : Bool :=
  match decimal? false (splitSign cs).2 with
  | some n => n.value?.isSome
  | none => false

/-- Whether an unquoted word is a string. -/
def isString (cs : List Char) : Bool :=
  if reserved.contains (String.ofList cs) then false
  else match cs with
    | [] => false
    | '.' :: _ => (Number.ofChars? cs).isNone
    | c :: _ =>
      if isDigit c || c == '+' || c == '-' then
        let plain := cs.filter (· != '_')
        !(Timestamp.isTimestamp cs || isInteger plain || isFloat plain || isInnerSigned plain)
      else true

end Pseudocode.Yaml.Plain
