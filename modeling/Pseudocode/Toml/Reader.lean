import Pseudocode.Calendar
import Pseudocode.Number.Numeral
import Pseudocode.Number.Word
import Pseudocode.Text.Blank
import Pseudocode.Toml.Syntax

/-!
# Reading TOML

A reader takes something from the front of a list of characters and gives what follows it; it fails
when the characters do not spell it. Nothing is said about where a file went wrong.

Arrays and inline tables nest, so values are read with a bound on the depth, which the length of the
file supplies.
-/

namespace Pseudocode.Toml

/-- Blanks that may stand anywhere in a line. -/
def isSpace (c : Char) : Bool := c == ' ' || c == '\t'

/-- Characters that end a line. A carriage return always has a newline after it. -/
def isLineEnd (c : Char) : Bool := c == '\n' || c == '\r'

/-- What follows the blanks of a line. -/
def skipSpaces (cs : List Char) : List Char := cs.dropWhile isSpace

/-- What follows a comment, from its line end on. -/
def skipComment (cs : List Char) : List Char := cs.dropWhile fun c => !isLineEnd c

namespace Reader

/-! ### Strings -/

/-- The character that hexadecimal digits name. -/
def unicode? (digits : List Char) : Option Char :=
  if digits.all Numeral.isHexDigit then
    let n := Numeral.ofDigits 16 digits
    if n.isValidChar then some (Char.ofNat n) else none
  else none

/-- The character that a letter after a backslash stands for. -/
def escape? : Char → Option Char
  | 'b' => some (Char.ofNat 8)
  | 't' => some '\t'
  | 'n' => some '\n'
  | 'f' => some (Char.ofNat 12)
  | 'r' => some '\r'
  | '"' => some '"'
  | '\\' => some '\\'
  | _ => none

/-- A string on one line, after its opening quote. -/
def basicString : List Char → Option (List Char × List Char)
  | [] => none
  | '"' :: rest => some ([], rest)
  | '\\' :: 'u' :: a :: b :: c :: d :: rest => do
    let x ← unicode? [a, b, c, d]
    let (s, after) ← basicString rest
    some (x :: s, after)
  | '\\' :: 'U' :: a :: b :: c :: d :: e :: f :: g :: h :: rest => do
    let x ← unicode? [a, b, c, d, e, f, g, h]
    let (s, after) ← basicString rest
    some (x :: s, after)
  | '\\' :: e :: rest => do
    let x ← escape? e
    let (s, after) ← basicString rest
    some (x :: s, after)
  | c :: rest => do
    if isLineEnd c then none
    else
      let (s, after) ← basicString rest
      some (c :: s, after)

/-- A string on one line without escapes, after its opening quote. -/
def literalString (cs : List Char) : Option (List Char × List Char) :=
  match cs.dropWhile fun c => c != '\'' && !isLineEnd c with
  | '\'' :: rest => some (cs.takeWhile (fun c => c != '\'' && !isLineEnd c), rest)
  | _ => none

/-- The characters up to three closing quotes, after three opening ones. `seen` is what came before,
last first. Up to two quotes may stand before the closing ones; with more the string is refused, but
a quote right after a backslash is not counted where `escapes` are read. -/
def multilineExtent (quote : Char) (escapes : Bool) (seen : List Char) :
    List Char → Option (List Char × List Char)
  | [] => none
  | c :: rest =>
    if c = quote then
      match rest with
      | p :: q :: after =>
        if p = quote ∧ q = quote then
          if after.head? = some quote then
            if seen.take 2 = [quote, quote] ∧ ¬(escapes ∧ (seen.drop 2).head? = some '\\') then none
            else multilineExtent quote escapes (c :: seen) (p :: q :: after)
          else some (seen.reverse, after)
        else multilineExtent quote escapes (c :: seen) (p :: q :: after)
      | _ => none
    else if escapes ∧ c = '\\' then
      match rest with
      | d :: after => multilineExtent quote escapes (d :: c :: seen) after
      | [] => none
    else multilineExtent quote escapes (c :: seen) rest

/-- A text without the line end it starts with. -/
def dropFirstLineEnd : List Char → List Char
  | '\n' :: rest => rest
  | '\r' :: '\n' :: rest => rest
  | cs => cs

/-- Blanks and line ends. -/
def isGap (c : Char) : Bool := isSpace c || isLineEnd c

/-- Replace the escapes of a string on several lines. A backslash at the end of a line removes all
blanks and line ends up to the next character; `joining` tells that this is being done. -/
def unescapeLines : (joining : Bool) → List Char → Option (List Char)
  | _, [] => some []
  | _, '\\' :: 'u' :: a :: b :: c :: d :: rest => do
    let x ← unicode? [a, b, c, d]
    let s ← unescapeLines false rest
    some (x :: s)
  | _, '\\' :: 'U' :: a :: b :: c :: d :: e :: f :: g :: h :: rest => do
    let x ← unicode? [a, b, c, d, e, f, g, h]
    let s ← unescapeLines false rest
    some (x :: s)
  | _, '\\' :: e :: rest => do
    if isGap e then
      if ((e :: rest).takeWhile isGap).contains '\n' then unescapeLines true rest else none
    else
      let x ← escape? e
      let s ← unescapeLines false rest
      some (x :: s)
  | joining, c :: rest => do
    if joining && isGap c then unescapeLines true rest
    else
      let s ← unescapeLines false rest
      some (c :: s)

/-- A string value, after its first quote. -/
def string (quote : Char) (cs : List Char) : Option (List Char × List Char) :=
  let basic := quote == '"'
  match cs with
  | p :: q :: rest =>
    if p = quote ∧ q = quote then do
      let (s, after) ← multilineExtent quote basic [] rest
      let s := dropFirstLineEnd s
      if basic then
        let s ← unescapeLines false s
        some (s, after)
      else some (s, after)
    else if basic then basicString cs else literalString cs
  | _ => if basic then basicString cs else literalString cs

/-! ### Keys -/

/-- A name: bare, or between quotes on one line. -/
def name (cs : List Char) : Option (Text × List Char) :=
  match cs with
  | '"' :: rest => do
    let (s, after) ← basicString rest
    some (Text.ofChars s, after)
  | '\'' :: rest => do
    let (s, after) ← literalString rest
    some (Text.ofChars s, after)
  | cs =>
    let bare := cs.takeWhile Key.isBareChar
    if bare.isEmpty then none else some (Text.ofChars bare, cs.dropWhile Key.isBareChar)

/-- Names with points between them, up to the character that ends the key. -/
def key (stop : Char) : (fuel : Nat) → List Char → Option (Key × List Char)
  | 0, _ => none
  | fuel + 1, cs => do
    let (n, rest) ← name (skipSpaces cs)
    match skipSpaces rest with
    | '.' :: rest =>
      let (ns, after) ← key stop fuel rest
      some (n :: ns, after)
    | c :: rest => if c = stop then some ([n], rest) else none
    | [] => none

/-! ### Numbers and dates -/

/-- Whether every underscore has a hexadecimal digit before it, and one ends the numeral. -/
def underscoresOk (cs : List Char) : Bool :=
  let step (state : Bool × Bool) (c : Char) : Bool × Bool :=
    (state.1 && (c != '_' || state.2), Numeral.isHexDigit c)
  let (ok, digit) := cs.foldl step (true, false)
  ok && digit

/-- Whether a decimal numeral has a zero before other digits. -/
def hasLeadingZero (cs : List Char) : Bool :=
  match (Numeral.splitSign cs).2 with
  | '0' :: _ :: _ => true
  | _ => false

/-- The integer in a range of 64 bits with a sign. -/
def inRange (i : Int) : Option Int :=
  if -(Word.half : Int) ≤ i ∧ i < Word.half then some i else none

/-- The integer that digits of a base spell. -/
def basedInteger? (base : Nat) (digits : List Char) : Option Value :=
  if underscoresOk digits then
    Value.integer <$> inRange (Numeral.ofDigits base (digits.filter (· != '_')))
  else none

/-- The integer that a decimal numeral with an optional sign spells. -/
def decimalInteger? (cs : List Char) : Option Value :=
  let (negative, digits) := Numeral.splitSign cs
  if underscoresOk cs ∧ ¬hasLeadingZero cs then
    let n : Int := Numeral.ofDigits 10 (digits.filter (· != '_'))
    Value.integer <$> inRange (if negative then -n else n)
  else none

/-- Whether a point always has a digit after it. -/
def pointsOk : List Char → Bool
  | [] => true
  | '.' :: rest => (match rest with
    | d :: _ => isDigit d
    | [] => false) && pointsOk rest
  | _ :: rest => pointsOk rest

/-- The pieces of a float between its point and the mark of its exponent, without empty ones. -/
def floatPieces (cs : List Char) : List (List Char) :=
  (cs.splitBy fun a b => !isMark a && !isMark b).filter fun piece => !piece.all isMark
where
  /-- The characters between the pieces. -/
  isMark (c : Char) : Bool := c == '.' || c == 'e' || c == 'E'

/-- Whether characters spell a float. -/
def float? (cs : List Char) : Option Value :=
  let pieces := floatPieces cs
  if pieces.all underscoresOk ∧ ¬(pieces.head?.map hasLeadingZero).getD false ∧ pointsOk cs then
    (Number.ofChars? (cs.filter (· != '_'))).map fun _ => Value.float
  else none

/-- Whether characters spell a date, a time of day, or both with or without a zone. -/
def datetime? (cs : List Char) : Option Value :=
  let timeAfter (rest : List Char) : Bool :=
    match Calendar.time? .two rest with
    | some [] => true
    | some rest => Calendar.zone? rest == some []
    | none => false
  let ok := match Calendar.date? .two cs with
    | some [] => true
    | some ('T' :: rest) => timeAfter rest
    | some _ => false
    | none => Calendar.time? .two cs == some []
  if ok then some .datetime else none

/-- Characters of a float. -/
def isFloatChar (c : Char) : Bool := isDigit c || ['_', '.', '-', '+', 'e', 'E'].contains c

/-- Characters of a date. -/
def isDateChar (c : Char) : Bool :=
  isDigit c || ['-', ':', 'T', 't', ' ', '.', 'Z', 'z', '+'].contains c

/-- The letters and the blank of a date in the form that is read. -/
def dateChar : Char → Char
  | 'z' => 'Z'
  | 't' => 'T'
  | ' ' => 'T'
  | c => c

/-- A decimal number, whose sign has been read into `sign`. -/
def decimal (sign : List Char) (cs : List Char) : Option (Value × List Char) :=
  let isDecimalChar (c : Char) : Bool := isDigit c || c == '_'
  match cs with
  | d :: _ =>
    if isDigit d then
      match cs.dropWhile isDecimalChar with
      | m :: _ =>
        if m = '.' ∨ m = 'e' ∨ m = 'E' then
          (float? (sign ++ cs.takeWhile isFloatChar)).map fun v => (v, cs.dropWhile isFloatChar)
        else integer
      | [] => integer
    else none
  | [] => none
where
  /-- The number when it has neither point nor exponent. -/
  integer : Option (Value × List Char) :=
    let isDecimalChar (c : Char) : Bool := isDigit c || c == '_'
    (decimalInteger? (sign ++ cs.takeWhile isDecimalChar)).map fun v =>
      (v, cs.dropWhile isDecimalChar)

/-- An integer in a base, after its mark. -/
def based (base : Nat) (isBaseDigit : Char → Bool) (cs : List Char) : Option (Value × List Char) :=
  let isBaseChar (c : Char) : Bool := isBaseDigit c || c == '_'
  (basedInteger? base (cs.takeWhile isBaseChar)).map fun v => (v, cs.dropWhile isBaseChar)

/-- A number or a date that starts with a digit. -/
def numberOrDate (cs : List Char) : Option (Value × List Char) :=
  match cs with
  | '0' :: 'x' :: rest => based 16 Numeral.isHexDigit rest
  | '0' :: 'o' :: rest => based 8 (fun c => decide ('0' ≤ c ∧ c ≤ '7')) rest
  | '0' :: 'b' :: rest => based 2 (fun c => c == '0' || c == '1') rest
  | cs =>
    match cs.dropWhile isDigit with
    | m :: _ =>
      if m = '-' ∨ m = ':' then
        let date := trimWhile isBlank (cs.takeWhile isDateChar)
        (datetime? (date.map dateChar)).map fun v => (v, cs.dropWhile isDateChar)
      else decimal [] cs
    | [] => decimal [] cs

/-! ### Values -/

mutual

/-- A value. -/
def value : (fuel : Nat) → List Char → Option (Value × List Char)
  | 0, _ => none
  | fuel + 1, cs =>
    match skipSpaces cs with
    | '[' :: rest => do
      let (vs, after) ← elements fuel rest
      some (.array vs, after)
    | '\x7b' :: rest =>
      match skipSpaces rest with
      | '\x7d' :: after => some (.table [], after)
      | rest => do
        let (es, after) ← entries fuel rest
        some (.table es, after)
    | '"' :: rest => do
      let (s, after) ← string '"' rest
      some (.string (Text.ofChars s), after)
    | '\'' :: rest => do
      let (s, after) ← string '\'' rest
      some (.string (Text.ofChars s), after)
    | 't' :: 'r' :: 'u' :: 'e' :: after => some (.boolean true, after)
    | 'f' :: 'a' :: 'l' :: 's' :: 'e' :: after => some (.boolean false, after)
    | 'i' :: 'n' :: 'f' :: after => some (.float, after)
    | 'n' :: 'a' :: 'n' :: after => some (.float, after)
    | c :: rest =>
      if c = '+' ∨ c = '-' then
        match rest with
        | 'i' :: 'n' :: 'f' :: after => some (.float, after)
        | 'n' :: 'a' :: 'n' :: after => some (.float, after)
        | rest => decimal [c] rest
      else if isDigit c then numberOrDate (c :: rest)
      else none
    | [] => none

/-- The elements of an array, up to its closing bracket. A comma may follow the last. -/
def elements : (fuel : Nat) → List Char → Option (List Value × List Char)
  | 0, _ => none
  | fuel + 1, cs => do
    match gap fuel cs with
    | ']' :: after => some ([], after)
    | cs =>
      let (v, rest) ← value fuel cs
      match gap fuel rest with
      | ']' :: after => some ([v], after)
      | ',' :: rest =>
        let (vs, after) ← elements fuel rest
        some (v :: vs, after)
      | _ => none

/-- The entries of an inline table, up to its closing brace. They stand on one line. -/
def entries : (fuel : Nat) → List Char → Option (List (Key × Value) × List Char)
  | 0, _ => none
  | fuel + 1, cs => do
    let (k, rest) ← key '=' fuel cs
    let (v, rest) ← value fuel rest
    match skipSpaces rest with
    | '\x7d' :: after => some ([(k, v)], after)
    | ',' :: rest =>
      let (es, after) ← entries fuel rest
      some ((k, v) :: es, after)
    | _ => none

/-- What follows blanks, line ends and comments. -/
def gap : (fuel : Nat) → List Char → List Char
  | 0, cs => cs
  | fuel + 1, cs =>
    match cs.dropWhile isGap with
    | '#' :: rest => gap fuel (skipComment rest)
    | cs => cs

end

/-! ### Lines -/

/-- What follows a statement: blanks, and perhaps a comment, up to the end of the line. -/
def endOfLine (cs : List Char) : Option (List Char) :=
  match skipSpaces cs with
  | [] => some []
  | '#' :: rest => some (skipComment rest)
  | c :: rest => if isLineEnd c then some rest else none

/-- One statement. -/
def statement (fuel : Nat) (cs : List Char) : Option (Statement × List Char) :=
  match cs with
  | '[' :: '[' :: rest => do
    let (k, rest) ← key ']' fuel rest
    let rest ← Calendar.skip? ']' rest
    some (.openArrayTable k, rest)
  | '[' :: rest => do
    let (k, rest) ← key ']' fuel rest
    some (.openTable k, rest)
  | cs => do
    let (k, rest) ← key '=' fuel cs
    let (v, rest) ← value fuel rest
    some (.entry k v, rest)

/-- All statements. -/
def statements : (fuel : Nat) → List Char → Option (List Statement)
  | 0, _ => none
  | fuel + 1, cs => do
    match gap fuel cs with
    | [] => some []
    | cs =>
      let (s, rest) ← statement fuel cs
      let rest ← endOfLine rest
      let ss ← statements fuel rest
      some (s :: ss)

end Reader

/-- Whether a file has no control characters but tabs and line ends, and no carriage return on its
own. -/
def isClean : List Char → Bool
  | [] => true
  | '\r' :: rest => rest.head? == some '\n' && isClean rest
  | c :: rest => (c == '\t' || c == '\n' || !(c.toNat < 32 || c.toNat == 127)) && isClean rest

/-- A file without the mark of its byte order. -/
def dropByteOrderMark : List UInt8 → List UInt8
  | 0xFF :: 0xFE :: rest => rest
  | 0xFE :: 0xFF :: rest => rest
  | 0xEF :: 0xBB :: 0xBF :: rest => rest
  | bytes => bytes

/-- The statements of a file. -/
def Statement.ofText? (t : Text) : Option (List Statement) :=
  let t : Text := ⟨dropByteOrderMark t.bytes⟩
  let cs := t.chars
  if t.isUtf8 && isClean cs then Reader.statements (2 * cs.length + 2) cs else none

end Pseudocode.Toml
