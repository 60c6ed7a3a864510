import Pseudocode.Action
import Pseudocode.Number.Numeral
import Pseudocode.Text.Blank
import Pseudocode.Text.Case
import Pseudocode.Value.Basic

/-!
# Built-in functions

Functions are called by name, ignoring case. Two of them draw random numbers; a draw is a look at a
given sequence, and the state of a call is how many draws have been made. All others are pure.
-/

namespace Pseudocode

/-- Functions from a number to a number. Some have two names. -/
inductive MathFunction where
  | sqrt | raiz | sin | sen | cos | tan | abs | log | ln | exp | round | trunc | floor | ceil
  deriving DecidableEq, Repr

namespace MathFunction

/-- All functions from a number to a number. -/
def all : List MathFunction :=
  [sqrt, raiz, sin, sen, cos, tan, abs, log, ln, exp, round, trunc, floor, ceil]

/-- The name of a function. -/
def name : MathFunction → String
  | sqrt => "sqrt"
  | raiz => "raiz"
  | sin => "sin"
  | sen => "sen"
  | cos => "cos"
  | tan => "tan"
  | abs => "abs"
  | log => "log"
  | ln => "ln"
  | exp => "exp"
  | round => "round"
  | trunc => "trunc"
  | floor => "floor"
  | ceil => "ceil"

/-- What a function computes. -/
def apply : MathFunction → Number → Number
  | sqrt, x | raiz, x => Float.sqrt x
  | sin, x | sen, x => Float.sin x
  | cos, x => Float.cos x
  | tan, x => Float.tan x
  | abs, x => x.abs
  | log, x => x.log10
  | ln, x => Float.log x
  | exp, x => Float.exp x
  | round, x => x.round
  | trunc, x => x.trunc
  | floor, x => x.floor
  | ceil, x => x.ceil

/-- The function with a name, ignoring case. -/
def ofName? (name : Text) : Option MathFunction :=
  let small := name.lower
  all.find? fun f => Text.ofString f.name == small

end MathFunction

/-- The functions that a program can call. -/
inductive Builtin where
  | math (f : MathFunction)
  | aleatorio
  | azar
  | longitud
  | concatenar
  | subcadena
  | convertirANumero
  | convertirATexto
  deriving DecidableEq, Repr

namespace Builtin

/-- All functions. -/
def all : List Builtin :=
  MathFunction.all.map math ++
    [aleatorio, azar, longitud, concatenar, subcadena, convertirANumero, convertirATexto]

/-- The name of a function in lower case, as messages have it. -/
def name : Builtin → String
  | math f => f.name
  | aleatorio => "aleatorio"
  | azar => "azar"
  | longitud => "longitud"
  | concatenar => "concatenar"
  | subcadena => "subcadena"
  | convertirANumero => "convertiranumero"
  | convertirATexto => "convertiratexto"

/-- The name as a text. -/
def text (b : Builtin) : Text := b.name

/-- The least number of arguments. -/
def minArgs : Builtin → Nat
  | math _ | longitud | convertirANumero | convertirATexto => 1
  | aleatorio | azar => 0
  | concatenar => 2
  | subcadena => 3

/-- The greatest number of arguments, if there is one. -/
def maxArgs? : Builtin → Option Nat
  | math _ | azar | longitud | convertirANumero | convertirATexto => some 1
  | aleatorio => some 2
  | concatenar => none
  | subcadena => some 3

/-- The function with a name, ignoring case. -/
def ofName? (name : Text) : Option Builtin :=
  let small := name.lower
  all.find? fun b => b.text == small

/-- Whether a function takes this many arguments. -/
def takes (b : Builtin) (count : Nat) : Bool :=
  decide (b.minArgs ≤ count) && (match b.maxArgs? with
    | some most => decide (count ≤ most)
    | none => true)

end Builtin

/-- Why a call fails. -/
inductive CallFault where
  | argumentCount (function : Builtin) (count : Nat)
  | numberNeeded (function : Builtin) (kind : Value.Kind)
  | lengthNeeded (kind : Value.Kind)
  deriving DecidableEq, Repr

namespace CallFault

/-- The wording of a fault. -/
def message : CallFault → Text
  | argumentCount f count =>
    let got := ", got " ++ Text.ofNat count
    match f.maxArgs? with
    | some most =>
      if f.minArgs = most then
        f.text ++ " expects " ++ Text.ofNat most ++ " argument(s)" ++ got
      else
        f.text ++ " expects " ++ Text.ofNat f.minArgs ++ " to " ++ Text.ofNat most ++
          " arguments" ++ got
    | none => f.text ++ " expects at least " ++ Text.ofNat f.minArgs ++ " argument(s)" ++ got
  | numberNeeded f kind => f.text ++ " expects a number, got " ++ kind.name
  | lengthNeeded kind => "longitud expects text or an array, got " ++ kind.name

end CallFault

/-- A call, whose state is how many random numbers have been drawn. -/
abbrev Call := Action Nat CallFault

namespace Builtin

/-- The next random number of a sequence. -/
def draw (draws : Nat → Number) : Call Number := fun n => (.ok (draws n), n + 1)

/-- An argument that must be a number. -/
def numberArg (b : Builtin) : Value → Call Number
  | .number n => pure n
  | v => Action.fail (.numberNeeded b v.kind)

/-- An argument that may be left out. -/
def numberArgOr (b : Builtin) (default : Number) : Option Value → Call Number
  | some v => b.numberArg v
  | none => pure default

/-- A number of characters, cut to what is there. -/
def clampIndex (length : Nat) (x : Number) : Nat :=
  if x.isNaN || decide (x < 0) then 0
  else if Number.ofNat length < x then length
  else x.natPart

/-- The elements between two positions, whichever comes first. -/
def between {α : Type} (xs : List α) (i j : Nat) : List α :=
  (xs.drop (min i j)).take (max i j - min i j)

/-- The part of a text from one position up to another. -/
def substring (t : Text) (start stop : Number) : Text :=
  let cs := t.chars
  Text.ofChars (between cs (clampIndex cs.length start) (clampIndex cs.length stop))

/-- A value as a number. A text may have blanks around a numeral, and a blank text is zero. -/
def toNumber : Value → Number
  | .number n => n
  | .boolean b => if b then 1 else 0
  | .text t =>
    let trimmed := trimWhile isBlank t.chars
    if trimmed.isEmpty then 0 else (Number.ofChars? trimmed).getD Number.nan
  | _ => Number.nan

/-- What a function gives for its arguments. Arguments that it does not take are ignored. -/
def apply (draws : Nat → Number) (arrays : Arrays) (b : Builtin) (args : List Value) : Call Value :=
  match b, args with
  | math f, v :: _ => do
    let x ← b.numberArg v
    return .number (f.apply x)
  | aleatorio, args => do
    let lo ← b.numberArgOr 0 args[0]?
    let hi ← b.numberArgOr 1 args[1]?
    let r ← draw draws
    return .number (lo + r * (hi - lo))
  | azar, args => do
    let hi ← b.numberArgOr 100 args[0]?
    let r ← draw draws
    return .number ((r * hi).floor + 1)
  | longitud, v :: _ =>
    match v with
    | .text t => return .number (Number.ofNat t.length)
    | .array id => return .number (Number.ofNat (arrays.elements id).size)
    | v => Action.fail (.lengthNeeded v.kind)
  | concatenar, vs => return .text (Text.concat (vs.map (·.toText arrays)))
  | subcadena, v :: start :: stop :: _ => do
    let start ← b.numberArg start
    let stop ← b.numberArg stop
    return .text (substring (v.toText arrays) (start - 1) stop)
  | convertirANumero, v :: _ => return .number (toNumber v)
  | convertirATexto, v :: _ => return .text (v.toText arrays)
  | _, _ => Action.fail (.argumentCount b args.length)

end Builtin

end Pseudocode
