import Pseudocode.Text.Blank
import Pseudocode.Text.Letter
import Pseudocode.Text.Printable
import Pseudocode.Text.Radix
import Pseudocode.Token.Basic

/-!
# From characters to tokens

The scanner takes one character at a time. Between two characters it knows only the lexeme under
way, the place it has come to, and the tokens it has made; so scanning a text in two parts is
scanning the second part from the state after the first.

A character either extends the lexeme under way, or it ends it and starts the next one. This makes
every lexeme as long as it can be: `<` waits for `-`, `=` or `>`, a digit for more digits, a letter
for more letters and digits, and `/` for a second `/`, which starts a comment.
-/

namespace Pseudocode

/-- Why a source has no tokens. -/
inductive LexCause where
  | unterminatedString
  | unexpectedCharacter (c : Char)
  deriving DecidableEq, Repr

namespace LexCause

/-- The wording of a cause. -/
def message : LexCause → Text
  | unterminatedString => "unterminated string literal"
  | unexpectedCharacter c =>
    if isPrintable c then "unexpected character '" ++ Text.ofChars [c] ++ "'"
    else "unexpected character U+" ++ Text.ofChars (Text.upperHex 4 c.toNat)

/-- Whether more characters could mend it. -/
def isIncomplete : LexCause → Bool
  | unterminatedString => true
  | unexpectedCharacter _ => false

end LexCause

/-- A cause and the place where the lexeme starts that has it. -/
structure LexError where
  loc : Location
  cause : LexCause
  deriving DecidableEq, Repr

/-- The lexeme under way. Characters are kept last one first. -/
inductive Scanner.Mode where
  | between
  | number (start : Location) (digits : List Char)
  | word (start : Location) (letters : List Char)
  | string (start : Location) (body : List Char)
  | slash (start : Location)
  | less (start : Location)
  | greater (start : Location)
  | comment
  deriving DecidableEq, Repr

/-- The state between two characters. Tokens are kept last one first. -/
structure Scanner where
  mode : Scanner.Mode
  here : Location
  tokens : List Token
  deriving DecidableEq, Repr

namespace Scanner

/-- The state before the first character. -/
def initial : Scanner := ⟨.between, .origin, []⟩

/-- A token with a place. -/
def token (start : Location) (kind : Token.Kind) (cs : List Char) : Token :=
  ⟨kind, Text.ofChars cs, some start⟩

/-- What a word is: a truth value, a reserved word or an identifier. -/
def wordKind (word : Text) : Token.Kind :=
  if isTruthWord word then .boolean else if isReserved word then .keyword else .identifier

/-- The token of a word. -/
def wordToken (start : Location) (letters : List Char) : Token :=
  ⟨wordKind (Text.ofChars letters), Text.ofChars letters, some start⟩

/-- The operators of one character that no other character can extend. -/
def plainOperators : List Char := ['+', '-', '*', '=', ':', '&', '|']

/-- The kind of a punctuation mark. -/
def punctuation? : Char → Option Token.Kind
  | '(' => some .openParen
  | ')' => some .closeParen
  | '[' => some .openBracket
  | ']' => some .closeBracket
  | ',' => some .comma
  | _ => none

/-- What a character does that stands at `here` when no lexeme is under way: the lexeme it starts,
and the token if it is one by itself. -/
def start (here : Location) (c : Char) : Except LexError (Mode × Option Token) :=
  if isBlank c then .ok (.between, none)
  else if c == '"' then .ok (.string here [], none)
  else if isDigit c then .ok (.number here [c], none)
  else if isLetter c then .ok (.word here [c], none)
  else if c == '/' then .ok (.slash here, none)
  else if c == '<' then .ok (.less here, none)
  else if c == '>' then .ok (.greater here, none)
  else if plainOperators.contains c then .ok (.between, some (token here .operator [c]))
  else match punctuation? c with
    | some kind => .ok (.between, some (token here kind [c]))
    | none => .error ⟨here, .unexpectedCharacter c⟩

/-- What a character does to the lexeme under way, if it belongs to it. -/
def Mode.extend? (m : Mode) (c : Char) : Option (Mode × Option Token) :=
  match m with
  | .between => none
  | .number s ds => if isDigit c then some (.number s (c :: ds), none) else none
  | .word s ls =>
    if isLetter c || isDecimalDigit c then some (.word s (c :: ls), none) else none
  | .string s body =>
    if c == '"' then some (.between, some (token s .string body.reverse))
    else some (.string s (c :: body), none)
  | .slash _ => if c == '/' then some (.comment, none) else none
  | .less s =>
    if c == '-' then some (.between, some (token s .assignment ['<', '-']))
    else if c == '=' || c == '>' then some (.between, some (token s .operator ['<', c]))
    else none
  | .greater s => if c == '=' then some (.between, some (token s .operator ['>', c])) else none
  | .comment => some (if c == '\n' then .between else .comment, none)

/-- The token that the lexeme under way is when it ends. -/
def Mode.close : Mode → Except LexError (Option Token)
  | .between | .comment => .ok none
  | .number s ds => .ok (some (token s .number ds.reverse))
  | .word s ls => .ok (some (wordToken s ls.reverse))
  | .string s _ => .error ⟨s, .unterminatedString⟩
  | .slash s => .ok (some (token s .operator ['/']))
  | .less s => .ok (some (token s .operator ['<']))
  | .greater s => .ok (some (token s .operator ['>']))

/-- Take one character. -/
def step (s : Scanner) (c : Char) : Except LexError Scanner :=
  match s.mode.extend? c with
  | some (mode, made) => .ok ⟨mode, s.here.advance c, made.toList ++ s.tokens⟩
  | none => do
    let closed ← s.mode.close
    let (mode, made) ← start s.here c
    return ⟨mode, s.here.advance c, made.toList ++ (closed.toList ++ s.tokens)⟩

/-- All tokens when no character follows. -/
def finish (s : Scanner) : Except LexError (List Token) := do
  let closed ← s.mode.close
  return (closed.toList ++ s.tokens).reverse

end Scanner

/-- The tokens of a list of characters. -/
def scanChars (cs : List Char) : Except LexError (List Token) := do
  (← cs.foldlM Scanner.step .initial).finish

/-- The tokens of a source. -/
def scan (src : Text) : Except LexError (List Token) := scanChars src.chars

end Pseudocode
