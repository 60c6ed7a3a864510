import Pseudocode.Text.Utf8

/-!
# TOML syntax

What a TOML file says, line by line: it opens a table, opens another table of an array, or gives a
value to a key. A key is a path of names; one in a table is taken from where the table stands.
-/

namespace Pseudocode.Toml

/-- A path of names. -/
abbrev Key := List Text

/-- Values. Floats and dates are only known to be well formed. -/
inductive Value where
  | string (t : Text)
  | integer (i : Int)
  | boolean (b : Bool)
  | float
  | datetime
  | array (elements : List Value)
  | table (entries : List (Key × Value))
  deriving Repr, Inhabited

/-- Whether a value is an array. -/
def Value.isArray : Value → Bool
  | array _ => true
  | _ => false

/-- What a line says. -/
inductive Statement where
  | openTable (key : Key)
  | openArrayTable (key : Key)
  | entry (key : Key) (value : Value)
  deriving Repr, Inhabited

namespace Key

/-- Characters that a name may have without quotes. -/
def isBareChar (c : Char) : Bool := c.isAlphanum || c == '_' || c == '-'

/-- A character of a name between quotes. -/
def quotedChar (c : Char) : List Char :=
  match c with
  | '"' => ['\\', '"']
  | '\\' => ['\\', '\\']
  | '\t' => ['\\', 't']
  | '\n' => ['\\', 'n']
  | '\r' => ['\\', 'r']
  | c =>
    if c.toNat = 8 then ['\\', 'b']
    else if c.toNat = 12 then ['\\', 'f']
    else if c.toNat < 32 ∨ c.toNat = 127 then
      '\\' :: 'u' :: '0' :: '0' :: (if c.toNat < 16 then ['0'] else []) ++ Nat.toDigits 16 c.toNat
    else [c]

/-- A name as it is written in a key. -/
def nameText (name : Text) : Text :=
  let cs := name.chars
  if cs.all isBareChar && !cs.isEmpty then name
  else Text.ofChars ('"' :: cs.flatMap quotedChar ++ ['"'])

/-- A key as it is written. -/
def text (key : Key) : Text := Text.join "." (key.map nameText)

end Key

end Pseudocode.Toml
