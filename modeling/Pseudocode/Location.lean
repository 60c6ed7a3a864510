import Pseudocode.Text.Basic

/-!
# Places in a source

Lines and columns are counted from one, columns in characters. A place may also be made up by a
host, so nothing is assumed about the numbers.
-/

namespace Pseudocode

/-- A line and a column. -/
structure Location where
  line : Int
  column : Int
  deriving DecidableEq, Repr

namespace Location

/-- The place of the first character. -/
def origin : Location := ⟨1, 1⟩

/-- The place after a character that stands here. -/
def advance (l : Location) (c : Char) : Location :=
  if c = '\n' then ⟨l.line + 1, 1⟩ else ⟨l.line, l.column + 1⟩

/-- Line and column with a colon between them. -/
def text (l : Location) : Text := Text.ofInt l.line ++ ":" ++ Text.ofInt l.column

/-- A place that may be missing, as diagnostics name it. -/
def optionText : Option Location → Text
  | some l => l.text
  | none => "?:?"

end Location

end Pseudocode
