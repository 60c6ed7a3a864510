import Pseudocode.Text.Radix
import Pseudocode.Text.Utf8
import Pseudocode.Yaml.Node
import Pseudocode.Yaml.Plain

/-!
# How strings are written in YAML

A string is written in the first of these styles that can hold it. One with a newline is a literal
block, else it is double quoted. One that would be read as something else is double quoted. Any
other is plain, else single quoted, else double quoted. Bytes that are no UTF-8 are written in base
64 with a tag.
-/

namespace Pseudocode.Yaml

/-- Space or tab. -/
def isBlankChar (c : Char) : Bool := c == ' ' || c == '\t'

/-- The characters that end a line. -/
def isBreak (c : Char) : Bool := [0x0A, 0x0D, 0x85, 0x2028, 0x2029].contains c.toNat

/-- The characters that are written as they are. -/
def isPlainPrintable (c : Char) : Bool :=
  let n := c.toNat
  n == 0x0A || (0x20 ≤ n && n ≤ 0x7E) || (0xA0 ≤ n && n ≤ 0xD7FF) ||
    (0xE000 ≤ n && n ≤ 0xFFFD && n != 0xFEFF)

/-- Whether one of a kind of characters is followed by one of another kind. -/
def anyAdjacent (first second : Char → Bool) : List Char → Bool
  | a :: b :: rest => (first a && second b) || anyAdjacent first second (b :: rest)
  | _ => false

/-- A character that must be escaped, other than a tab. -/
def isSpecial (c : Char) : Bool := c != '\t' && !isPlainPrintable c

/-- Whether a string can be a literal block. -/
def blockAllowed (cs : List Char) : Bool :=
  cs.getLast? != some ' ' && !anyAdjacent (· == ' ') isBreak cs && !cs.any isSpecial

/-- Whether a string can be single quoted. -/
def singleAllowed (cs : List Char) : Bool :=
  !anyAdjacent (· == ' ') isBreak cs && !anyAdjacent isBreak (· == ' ') cs &&
    !cs.any (fun c => c == '\t' || isSpecial c)

/-- The characters that mean something at the start of a word. -/
def leadingIndicators : List Char :=
  ['#', ',', '[', ']', '\x7b', '\x7d', '&', '*', '!', '|', '>', '\'', '"', '%', '@', '\x60']

/-- Whether a blank or nothing stands at the start. -/
def startsBlank : List Char → Bool
  | [] => true
  | c :: _ => isBlankChar c

/-- Whether a colon before a blank, or a number sign after one, stands after the first character. -/
def innerIndicator : (previous : Char) → List Char → Bool
  | _, [] => false
  | previous, c :: rest =>
    (c == ':' && startsBlank rest) ||
      (c == '#' && (isBlankChar previous || isBreak previous || previous == '\x00')) ||
      innerIndicator c rest

/-- Whether the start of a string, or a place in it, means something to a reader of YAML. -/
def hasIndicator : List Char → Bool
  | [] => false
  | c :: rest =>
    leadingIndicators.contains c || ((c == '?' || c == ':' || c == '-') && startsBlank rest) ||
      (c :: rest).take 3 == ['-', '-', '-'] || (c :: rest).take 3 == ['.', '.', '.'] ||
      innerIndicator c rest

/-- Whether a string can be written without quotes. -/
def plainAllowed (cs : List Char) : Bool :=
  singleAllowed cs && !hasIndicator cs && !cs.any isBreak && cs.head? != some ' ' &&
    cs.getLast? != some ' '

/-- The ways to write a string. -/
inductive Style where
  | plain | single | double | literal
  deriving DecidableEq, Repr

/-- The way a string is written. -/
def Style.of (cs : List Char) : Style :=
  if cs.contains '\n' then (if blockAllowed cs then .literal else .double)
  else if !Plain.isString cs then .double
  else if plainAllowed cs then .plain
  else if singleAllowed cs then .single
  else .double

/-- The escape of a character between double quotes. -/
def escape (c : Char) : List Char :=
  let n := c.toNat
  let short : Option Char := match n with
    | 0x00 => some '0'
    | 0x07 => some 'a'
    | 0x08 => some 'b'
    | 0x09 => some 't'
    | 0x0A => some 'n'
    | 0x0B => some 'v'
    | 0x0C => some 'f'
    | 0x0D => some 'r'
    | 0x1B => some 'e'
    | 0x22 => some '"'
    | 0x5C => some '\\'
    | 0x85 => some 'N'
    | 0xA0 => some '_'
    | 0x2028 => some 'L'
    | 0x2029 => some 'P'
    | _ => none
  match short with
  | some s => ['\\', s]
  | none =>
    if n ≤ 0xFF then '\\' :: 'x' :: Text.upperHex 2 n
    else if n ≤ 0xFFFF then '\\' :: 'u' :: Text.upperHex 4 n
    else '\\' :: 'U' :: Text.upperHex 8 n

/-- A string between double quotes. -/
def doubleQuoted (cs : List Char) : List Char :=
  let written (c : Char) : List Char :=
    if !isPlainPrintable c || isBreak c || c == '"' || c == '\\' then escape c else [c]
  '"' :: cs.flatMap written ++ ['"']

/-- So many spaces. -/
def spaces (n : Nat) : List Char := List.replicate n ' '

/-- A string between single quotes. After a line break the line is indented. -/
def singleQuoted (indent : Nat) (cs : List Char) : List Char :=
  '\'' :: body false cs ++ ['\'']
where
  /-- What stands between the quotes. -/
  body : (lineStart : Bool) → List Char → List Char
    | _, [] => []
    | lineStart, c :: rest =>
      if isBreak c then c :: body true rest
      else if c == ' ' then c :: body lineStart rest
      else
        (if lineStart then spaces indent else []) ++
          (if c == '\'' then ['\'', '\''] else [c]) ++ body false rest

/-- The marks behind the bar of a literal block: the indentation when the text starts with a blank
or a break, a minus when it ends without a break, a plus when it ends with more than one. -/
def literalMarks (cs : List Char) : List Char :=
  let leading := match cs with
    | c :: _ => if c == ' ' || isBreak c then ['2'] else []
    | [] => []
  let chomping := match cs.reverse with
    | [] => ['-']
    | [c] => if isBreak c then ['+'] else ['-']
    | c :: d :: _ => if !isBreak c then ['-'] else if isBreak d then ['+'] else []
  leading ++ chomping

/-- A string as a literal block. A break at its start is the one that ends the line of the bar. -/
def literalBlock (indent : Nat) (cs : List Char) : List Char :=
  '|' :: literalMarks cs ++ body true false cs
where
  /-- The lines of the block. `lineStart` tells that a line starts here, `atMargin` that the break
  before it is written. -/
  body : (lineStart atMargin : Bool) → List Char → List Char
    | _, _, [] => []
    | lineStart, atMargin, c :: rest =>
      if isBreak c then c :: body true true rest
      else if lineStart then
        (if atMargin then [] else ['\n']) ++ spaces indent ++ c :: body false false rest
      else c :: body false false rest

/-- The digits of base 64. -/
def base64Digit (n : Nat) : Char :=
  if n < 26 then Char.ofNat (65 + n)
  else if n < 52 then Char.ofNat (97 + (n - 26))
  else if n < 62 then Char.ofNat (48 + (n - 52))
  else if n = 62 then '+' else '/'

/-- Bytes in base 64, padded to groups of four digits. -/
def base64 : List UInt8 → List Char
  | [] => []
  | [a] =>
    let n := a.toNat * 16
    [base64Digit (n / 64), base64Digit (n % 64), '=', '=']
  | [a, b] =>
    let n := (a.toNat * 256 + b.toNat) * 4
    [base64Digit (n / 4096), base64Digit (n / 64 % 64), base64Digit (n % 64), '=']
  | a :: b :: c :: rest =>
    let n := a.toNat * 65536 + b.toNat * 256 + c.toNat
    [base64Digit (n / 262144), base64Digit (n / 4096 % 64), base64Digit (n / 64 % 64),
      base64Digit (n % 64)] ++ base64 rest

/-- Characters in lines of `width`, each ended by a newline. The count bounds the lines. -/
def wrapLines (width : Nat) : (count : Nat) → List Char → List Char
  | _, [] => []
  | 0, cs => cs
  | count + 1, cs => cs.take width ++ '\n' :: wrapLines width count (cs.drop width)

/-- The width of the lines of base 64. -/
def base64Width : Nat := 70

/-- Bytes in base 64 under their tag, in one line or in a block. -/
def binary (indent : Nat) (bytes : List UInt8) : List Char :=
  let digits := base64 bytes
  "!!binary ".toList ++
    (if digits.length < base64Width then digits
     else literalBlock indent (wrapLines base64Width digits.length digits))

/-- A scalar as it is written. Further lines are indented. -/
def Scalar.written (indent : Nat) : Scalar → List Char
  | .bare t => t.chars
  | .string t =>
    if !t.isUtf8 then binary indent t.bytes
    else
      let cs := t.chars
      match Style.of cs with
      | .plain => cs
      | .single => singleQuoted indent cs
      | .double => doubleQuoted cs
      | .literal => literalBlock indent cs

end Pseudocode.Yaml
