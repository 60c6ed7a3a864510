import Pseudocode.Location
import Pseudocode.Token.Keyword

/-!
# Tokens

A token is a kind, the text it was written as (without the quotes, for a string) and the place where
it starts. Tokens made by a host may lack a place, and may have a kind that the language does not
know.
-/

namespace Pseudocode

/-- The kinds of token. -/
inductive Token.Kind where
  | endOfInput | keyword | identifier | operator | string | number | boolean
  | openParen | closeParen | openBracket | closeBracket | assignment | comma
  | unknown (code : Int)
  deriving DecidableEq, Repr

namespace Token.Kind

/-- The kinds of the language, in the order of their codes. -/
def known : List Token.Kind :=
  [endOfInput, keyword, identifier, operator, string, number, boolean, openParen, closeParen,
   openBracket, closeBracket, assignment, comma]

/-- The name of a kind in listings and messages. -/
def name : Token.Kind → String
  | endOfInput => "EOF"
  | keyword => "KEYWORD"
  | identifier => "IDENTIFIER"
  | operator => "OPERATOR"
  | string => "STRING"
  | number => "NUMBER"
  | boolean => "BOOLEAN"
  | openParen => "PAREN_LEFT"
  | closeParen => "PAREN_RIGHT"
  | openBracket => "BRACKET_LEFT"
  | closeBracket => "BRACKET_RIGHT"
  | assignment => "ASSIGNMENT"
  | comma => "COMMA"
  | unknown _ => "UNKNOWN"

/-- The kind with a code. The codes of the known kinds start at one. -/
def ofCode (code : Int) : Token.Kind :=
  if code < 1 then unknown code else known.getD (code.toNat - 1) (unknown code)

/-- The known kind with a name. -/
def ofName? (name : String) : Option Token.Kind := known.find? (·.name == name)

end Token.Kind

/-- A piece of a source. -/
structure Token where
  kind : Token.Kind
  value : Text
  loc : Option Location
  deriving DecidableEq, Repr

namespace Token

/-- Whether a token has a kind and, unless `value` is empty, a value up to case orbits. -/
def matchesValue (t : Token) (kind : Kind) (value : Text) : Bool :=
  t.kind == kind && (value.isEmpty || t.value.sameFold value)

/-- Whether a token is a particular reserved word. -/
def isKeyword (t : Token) (k : Keyword) : Bool := t.kind == .keyword && t.value.sameFold k.text

/-- Whether a token is a particular operator. -/
def isOperator (t : Token) (symbol : String) : Bool :=
  t.kind == .operator && t.value.sameFold (Text.ofString symbol)

/-- How messages name a token. -/
def describe (t : Token) : Text :=
  if t.kind = .endOfInput then "end of input" else "'" ++ t.value ++ "'"

/-- The token that stands for the end of a token list: it has the place of the last token. -/
def ending (ts : List Token) : Token := ⟨.endOfInput, Text.empty, ts.getLast?.bind loc⟩

end Token

end Pseudocode
