import Pseudocode.Llvm.Module
import Pseudocode.Number.Shortest
import Pseudocode.Text.Radix

/-!
# The text of a module

String constants come first, then the function between the declarations of what it calls. Registers
are numbered in the order of the text.

A double is written in decimal when its shortest decimal is exact, and otherwise by its bits.
-/

namespace Pseudocode

namespace Number.Decimal

/-- Whether two decimals are equal as numbers. -/
def sameValue (a b : Decimal) : Bool :=
  a.digits * Nat.pow 10 (a.exponent - b.exponent).toNat ==
    b.digits * Nat.pow 10 (b.exponent - a.exponent).toNat

/-- A decimal written with one digit before the point and an exponent of two digits or more. -/
def scientific (d : Decimal) : List Char :=
  let ds := Nat.toDigits 10 d.digits
  let exponent : Int := ds.length + d.exponent - 1
  let fraction := if ds.length ≤ 1 then ['0'] else ds.drop 1
  let power := Nat.toDigits 10 exponent.natAbs
  ds.take 1 ++ '.' :: fraction ++ 'e' :: (if exponent < 0 then '-' else '+') ::
    (List.replicate (2 - power.length) '0' ++ power)

end Number.Decimal

namespace Llvm

/-- The exponents of ten that are written without an exponent. -/
def positionalExponents (exponent : Int) : Bool := decide (-4 ≤ exponent ∧ exponent < 6)

/-- A decimal with a point in it. -/
def decimalText (d : Number.Decimal) : List Char :=
  if positionalExponents ((Nat.toDigits 10 d.digits).length + d.exponent - 1) then
    if 0 ≤ d.exponent then d.positional ++ ['.', '0'] else d.positional
  else d.scientific

/-- A double by its bits. -/
def bitsText (bits : Nat) : Text := "0x" ++ Text.ofChars (Text.upperHex 1 bits)

/-- A double constant. -/
def doubleText (x : Number) : Text :=
  if x.isNaN then bitsText 0x7FF8000000000000
  else if x.isInf then bitsText x.toBits.toNat
  else
    let sign : List Char := if x.isNegative then ['-'] else []
    if x == 0 then Text.ofChars (sign ++ ['0', '.', '0'])
    else
      let d := x.shortest
      if d.sameValue x.exactDecimal then Text.ofChars (sign ++ decimalText d)
      else bitsText x.toBits.toNat

/-- A byte as it stands between quotes. -/
def quotedByte (b : UInt8) : List UInt8 :=
  let n := b.toNat
  if 0x20 ≤ n ∧ n ≤ 0x7E ∧ n ≠ 0x22 ∧ n ≠ 0x5C then [b]
  else (Text.ofChars ('\\' :: Text.upperHex 2 n)).bytes

/-- A text between quotes. -/
def quoted (t : Text) : Text := "\"" ++ ⟨t.bytes.flatMap quotedByte⟩ ++ "\""

/-- Whether a byte may stand in a name without quotes. -/
def isNameByte (b : UInt8) : Bool :=
  let c := Char.ofNat b.toNat
  decide (b < 128) && (c.isAlphanum || c == '$' || c == '.' || c == '_' || c == '-')

/-- A local name, between quotes if it has to be. -/
def localName (t : Text) : Text :=
  "%" ++ if t.bytes.all isNameByte then t else quoted t

/-- The name of the slot of a variable. -/
def slotName (variableName : Text) : Text := localName (variableName ++ ".addr")

namespace Role

/-- How labels of a role start. -/
def name : Role → String
  | body => "body"
  | ifThen => "if.then"
  | ifElse => "if.else"
  | ifEnd => "if.end"
  | switchEnd => "switch.end"
  | switchCase => "switch.case"
  | switchNext => "switch.next"
  | whileCond => "while.cond"
  | whileBody => "while.body"
  | whileEnd => "while.end"
  | repeatBody => "repeat.body"
  | repeatEnd => "repeat.end"
  | forCond => "for.cond"
  | forBody => "for.body"
  | forEnd => "for.end"

end Role

/-- A label as text. -/
def Label.text : Label → Text
  | entry => "entry"
  | numbered role index => role.name ++ "." ++ Text.ofNat index

/-- The mnemonic of an arithmetic operation. -/
def Arithmetic.name : Arithmetic → String
  | fadd => "fadd"
  | fsub => "fsub"
  | fmul => "fmul"
  | fdiv => "fdiv"

/-- The mnemonic of a comparison. -/
def Predicate.name : Predicate → String
  | ogt => "ogt"
  | olt => "olt"
  | oge => "oge"
  | ole => "ole"
  | oeq => "oeq"
  | une => "une"
  | one => "one"

/-- The mnemonic of a connective. -/
def Connective.name : Connective → String
  | and => "and"
  | or => "or"

/-- The name of a routine. -/
def Routine.name : Routine → String
  | sqrt => "sqrt"
  | sin => "sin"
  | cos => "cos"
  | tan => "tan"
  | fabs => "fabs"
  | log10 => "log10"
  | log => "log"
  | exp => "exp"
  | trunc => "trunc"
  | floor => "floor"
  | ceil => "ceil"

namespace Module

/-- The number of a register. -/
def registerText (m : Module) (r : Register) : Text := "%" ++ Text.ofNat (m.results.idxOf r)

/-- A double operand. -/
def operandText (m : Module) : Operand → Text
  | .constant x => doubleText x
  | .register r => m.registerText r

/-- The type of a string constant, which has a zero byte after the string. -/
def stringType (s : Text) : Text := "[" ++ Text.ofNat (s.bytes.length + 1) ++ " x i8]"

/-- The name of a string constant. -/
def stringName (index : Nat) : Text := "@.str." ++ Text.ofNat index

/-- The address of a string constant. -/
def stringAddress (m : Module) (s : Text) : Text :=
  "i8* getelementptr (" ++ stringType s ++ ", " ++ stringType s ++ "* " ++
    stringName (m.strings.idxOf s) ++ ", i32 0, i32 0)"

/-- The arguments of a printing call. -/
def printedText (m : Module) (p : Printed) : Text :=
  m.stringAddress p.format ++ match p with
    | .number v => ", double " ++ m.operandText v
    | .string s => ", " ++ m.stringAddress s
    | .newline => Text.empty

/-- An operation. -/
def operationText (m : Module) : Operation → Text
  | .load slot => "load double, double* " ++ slotName slot
  | .arithmetic op a b => op.name ++ " double " ++ m.operandText a ++ ", " ++ m.operandText b
  | .compare p a b => "fcmp " ++ p.name ++ " double " ++ m.operandText a ++ ", " ++ m.operandText b
  | .connect op a b => op.name ++ " i1 " ++ m.registerText a ++ ", " ++ m.registerText b
  | .toDouble r => "uitofp i1 " ++ m.registerText r ++ " to double"
  | .call f arg => "call double @" ++ f.name ++ "(double " ++ m.operandText arg ++ ")"
  | .print p => "call i32 (i8*, ...) @printf(" ++ m.printedText p ++ ")"

/-- An instruction. -/
def instrText (m : Module) : Instr → Text
  | .allocate slot => slotName slot ++ " = alloca double"
  | .store v slot => "store double " ++ m.operandText v ++ ", double* " ++ slotName slot
  | .define r op => m.registerText r ++ " = " ++ m.operationText op

/-- The end of a block. -/
def terminatorText (m : Module) : Terminator → Text
  | .jump l => "br label %" ++ l.text
  | .branch c yes no =>
    "br i1 " ++ m.registerText c ++ ", label %" ++ yes.text ++ ", label %" ++ no.text
  | .ret => "ret i32 0"

/-- A block: its label, and its lines behind a tab. -/
def blockText (m : Module) (b : Block) : Text :=
  let lines := b.code.map m.instrText ++ [m.terminatorText b.terminator]
  b.label.text ++ ":\n" ++ Text.concat (lines.map fun t => "\t" ++ t ++ "\n")

/-- The definition of a string constant. -/
def stringText (index : Nat) (s : Text) : Text :=
  stringName index ++ " = constant " ++ stringType s ++ " c" ++ quoted ⟨s.bytes ++ [0]⟩ ++ "\n"

/-- The function, whose blocks are separated by blank lines. -/
def functionText (m : Module) : Text :=
  "define i32 @main() \x7b\n" ++ Text.join "\n" (m.blocks.map m.blockText) ++ "\x7d\n"

/-- The declaration of the printing routine. -/
def printText : Text := "declare i32 @printf(i8* %format, ...)\n"

/-- The declaration of a routine. -/
def routineText (f : Routine) : Text := "declare double @" ++ f.name ++ "(double %x)\n"

/-- A module as text. -/
def text (m : Module) : Text :=
  let constants := Text.concat (m.strings.mapIdx stringText)
  let functions := printText :: m.functionText :: m.routines.map routineText
  (if m.strings.isEmpty then constants else constants ++ "\n") ++ Text.join "\n" functions

end Module

end Llvm

end Pseudocode
