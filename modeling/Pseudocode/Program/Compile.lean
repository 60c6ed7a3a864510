import Pseudocode.Diagnostic.Basic
import Pseudocode.Program.Parser
import Pseudocode.Token.Scanner

/-!
# From a source to a program

All of a source is scanned before any of it is parsed, so a character that starts no token is
reported even after tokens that the grammar refuses.
-/

namespace Pseudocode

/-- Why a source is no program. -/
inductive CompileError where
  | lex (error : LexError)
  | parse (error : ParseError)
  deriving DecidableEq, Repr

/-- The diagnostic of a lexical error. -/
def LexError.diagnostic (e : LexError) : Diagnostic where
  stage := .lexical
  loc := some e.loc
  summary := e.cause.message
  incomplete := e.cause.isIncomplete

/-- The diagnostic of a parse error. Only an unmet expectation says what was expected. -/
def ParseError.diagnostic (e : ParseError) : Diagnostic where
  stage := .parse
  loc := e.token.loc
  summary := e.message
  incomplete := e.isIncomplete
  expected := match e.cause with
    | .expected what => what.text
    | _ => Text.empty
  found := e.token.describe

namespace CompileError

/-- The diagnostic of a compile error. -/
def diagnostic : CompileError → Diagnostic
  | lex e => e.diagnostic
  | parse e => e.diagnostic

/-- Whether more of the source could mend it. -/
def isIncomplete (e : CompileError) : Bool := e.diagnostic.incomplete

end CompileError

/-- The program that a source spells. -/
def Program.ofSource (src : Text) : Except CompileError Program :=
  match scan src with
  | .error e => .error (.lex e)
  | .ok tokens => (Program.ofTokens tokens).mapError .parse

end Pseudocode
