import Pseudocode.Location
import Pseudocode.Text.Radix
import Pseudocode.Text.Utf8

/-!
# Diagnostics

A diagnostic says what is wrong with a program and where. It can be told in one line, or shown with
the source line it is about, one line of context on each side, and a caret under the column.

The excerpt is total: a place outside the source is moved to the nearest line, and a column before
the first one to the first.
-/

namespace Pseudocode

/-- What was being done with the program when the fault was found. -/
inductive Diagnostic.Stage where
  | lexical | parse | runtime | unsupported
  deriving DecidableEq, Repr

/-- A fault in a program. `expected` and `found` are filled in by the parser, `cause` when the fault
came from outside the program. -/
structure Diagnostic where
  stage : Diagnostic.Stage
  loc : Option Location
  summary : Text
  incomplete : Bool := false
  expected : Text := Text.empty
  found : Text := Text.empty
  cause : Option Text := none
  deriving DecidableEq, Repr

namespace Diagnostic

/-- The line that reports a diagnostic. -/
def message (d : Diagnostic) : Text :=
  match d.stage, d.loc with
  | .lexical, l => Location.optionText l ++ " lex error: " ++ d.summary
  | .parse, l => Location.optionText l ++ " parse error: " ++ d.summary
  | .runtime, none => "runtime error: " ++ d.summary
  | .runtime, some l => l.text ++ " runtime error: " ++ d.summary
  | .unsupported, l => Location.optionText l ++ " not supported by the IR backend: " ++ d.summary

/-- The words an excerpt starts with. -/
def Stage.heading : Stage → Text
  | lexical => "LEXICAL ERROR"
  | parse => "PARSE ERROR"
  | runtime => "RUNTIME ERROR"
  | unsupported => "UNSUPPORTED"

end Diagnostic

namespace Excerpt

/-- The blanks before the caret: a tab wherever the line has one, so that the caret stands under the
column that is meant. -/
def caretPad (line : List Char) (width : Nat) : List Char :=
  (line.take width).map (fun c => if c = '\t' then '\t' else ' ') ++
    List.replicate (width - line.length) ' '

/-- A source line with its number. -/
def numbered (number : Nat) (line : Text) : Text :=
  Text.padLeft 4 (Text.ofNat number) ++ " | " ++ line ++ "\n"

/-- The number of the line that is shown for a line number: the nearest that exists. -/
def clampLine (count : Nat) (line : Int) : Nat := min (max line.toNat 1) count

/-- A heading, the line that is meant with its neighbours, and the caret. -/
def render (src : Text) (heading : Text) (l : Location) (summary : Text) : Text :=
  let lines := src.lines
  let line := clampLine lines.length l.line
  let column := max l.column.toNat 1
  let shown (n : Nat) : Text := match lines[n - 1]? with
    | some t => numbered n t
    | none => Text.empty
  let this := lines.getD (line - 1) Text.empty
  heading ++ " at " ++ Text.ofNat line ++ ":" ++ Text.ofNat column ++ ": " ++ summary ++ "\n\n" ++
    (if 1 < line then shown (line - 1) else Text.empty) ++
    shown line ++
    "     | " ++ Text.ofChars (caretPad this.chars (column - 1)) ++ "^\n" ++
    (if line < lines.length then shown (line + 1) else Text.empty)

end Excerpt

namespace Diagnostic

/-- The diagnostic with an excerpt of the source, or without one when it has no place. -/
def format (d : Diagnostic) (src : Text) : Text :=
  match d.loc with
  | none => d.stage.heading ++ ": " ++ d.summary ++ "\n"
  | some l => Excerpt.render src d.stage.heading l d.summary

end Diagnostic

/-- Why something could not be done: a diagnostic, perhaps within a wider task that is named in
front of it, or a plain message. -/
inductive Failure where
  | plain (message : Text)
  | diagnosed (task : Option Text) (diagnostic : Diagnostic)
  deriving DecidableEq, Repr

namespace Failure

/-- The line that reports a failure. -/
def message : Failure → Text
  | plain m => m
  | diagnosed none d => d.message
  | diagnosed (some task) d => task ++ ": " ++ d.message

/-- The failure with an excerpt of the source where it has a place. -/
def format (f : Failure) (src : Text) : Text :=
  match f with
  | plain m => m
  | diagnosed _ d => d.format src

/-- Whether more of the source could mend it. -/
def isIncomplete : Failure → Bool
  | plain _ => false
  | diagnosed _ d => d.incomplete

end Failure

end Pseudocode
