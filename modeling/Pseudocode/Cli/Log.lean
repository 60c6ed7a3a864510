import Pseudocode.Duration
import Pseudocode.Text.Blank
import Pseudocode.Text.Quoted

/-!
# Log lines

A log line has a time, a level, a message and named values. It is written as pairs with an equals
sign, where what could be misread is quoted, or as an object on a line of its own.

The time, the number of a run and how long it took come from the host.
-/

namespace Pseudocode.Cli

/-- A value in a log line. -/
inductive LogValue where
  | integer (i : Int)
  | text (t : Text)
  | duration (d : Duration)
  | verbatim (t : Text)
  deriving Repr

/-- What only the host knows. -/
structure Stamps where
  time : LogValue
  runId : LogValue
  elapsed : LogValue
  deriving Repr

/-- The forms of a log line. -/
inductive LogFormat where
  | pairs
  | object
  deriving DecidableEq, Repr

/-- A message with named values. -/
structure LogLine where
  message : Text
  values : List (Text × LogValue) := []
  deriving Repr

namespace LogFormat

/-- Whether a character could be misread in a pair. -/
def isMisread (p : Char × List UInt8) : Bool :=
  let (c, _) := p
  if c.toNat < 0x80 then c == ' ' || c == '=' || c == '"' || c.toNat < 32
  else c == Utf8.replacement || isBlank c || !isPrintable c

/-- A text as the value of a pair. -/
def pairText (t : Text) : Text :=
  if t.isEmpty || t.segments.any isMisread then t.quoted else t

/-- A character of a text in an object. -/
def objectSegment : Char × List UInt8 → List Char
  | (c, bytes) =>
    if c = '"' ∨ c = '\\' then ['\\', c]
    else if c = '\n' then ['\\', 'n']
    else if c = '\r' then ['\\', 'r']
    else if c = '\t' then ['\\', 't']
    else if c.toNat < 32 ∨ c.toNat = 0x2028 ∨ c.toNat = 0x2029 then
      '\\' :: 'u' :: Text.lowerHex 4 c.toNat
    else if c = Utf8.replacement ∧ bytes.length = 1 then "\\ufffd".toList
    else [c]

/-- A text as a value in an object. -/
def objectText (t : Text) : Text :=
  Text.ofChars ('"' :: t.segments.flatMap objectSegment ++ ['"'])

/-- A value of a log line. -/
def valueText : LogFormat → LogValue → Text
  | _, .integer i => Text.ofInt i
  | _, .verbatim t => t
  | pairs, .text t => pairText t
  | object, .text t => objectText t
  | pairs, .duration d => pairText d.text
  | object, .duration d => Text.ofInt d.nanoseconds

/-- A log line as text. -/
def lineText (f : LogFormat) (stamps : Stamps) (line : LogLine) : Text :=
  let values : List (Text × LogValue) :=
    ("time", stamps.time) :: ("level", .text "DEBUG") :: ("msg", .text line.message) :: line.values
  match f with
  | pairs => Text.join " " (values.map fun (k, v) => k ++ "=" ++ f.valueText v) ++ "\n"
  | object =>
    let entries := values.map fun (k, v) => objectText k ++ ":" ++ f.valueText v
    "\x7b" ++ Text.join "," entries ++ "\x7d\n"

end LogFormat

end Pseudocode.Cli
