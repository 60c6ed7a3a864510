import Pseudocode.Calendar

/-!
# Dates and times in YAML

The forms of a date that an unquoted word may have: `2006-1-2` alone, with a time after one or more
spaces, or with a time and a zone after `T` or `t`.
-/

namespace Pseudocode.Yaml.Timestamp

open Calendar

/-- Whether the whole of `cs` is a date, or a date and a time. -/
def isTimestamp (cs : List Char) : Bool :=
  match date? .oneOrTwo cs with
  | none => false
  | some [] => true
  | some (' ' :: rest) => time? .oneOrTwo (rest.dropWhile (· == ' ')) == some []
  | some (c :: rest) => (c == 'T' || c == 't') && (time? .oneOrTwo rest >>= zone?) == some []

end Pseudocode.Yaml.Timestamp
