import Pseudocode.Builtin
import Pseudocode.Number.Binary

/-!
# Modules of LLVM code

The part of the LLVM language that numeric programs need: one function without arguments, whose
blocks compute with doubles and truth values, keep variables in stack slots, print, and call
routines of the mathematical library.

A register is named by the order in which the code was made. The text of a module numbers registers
by where they stand, which is a matter of printing. A string constant is named by what it holds,
since a module has one constant for each string.
-/

namespace Pseudocode

namespace Llvm

/-- The role of a block in the statement it was made for. -/
inductive Role where
  | body
  | ifThen | ifElse | ifEnd
  | switchEnd | switchCase | switchNext
  | whileCond | whileBody | whileEnd
  | repeatBody | repeatEnd
  | forCond | forBody | forEnd
  deriving DecidableEq, Repr

/-- The name of a block. Apart from the entry, blocks are numbered in the order of their making. -/
inductive Label where
  | entry
  | numbered (role : Role) (index : Nat)
  deriving DecidableEq, Repr

/-- The place of a block among the blocks of its function. -/
def Label.rank : Label → Nat
  | entry => 0
  | numbered _ index => index + 1

/-- The result of an operation. -/
abbrev Register := Nat

/-- A double: a constant, or the result of an operation. -/
inductive Operand where
  | constant (value : Number)
  | register (r : Register)
  deriving Repr

/-- Arithmetic on doubles. -/
inductive Arithmetic where
  | fadd | fsub | fmul | fdiv
  deriving DecidableEq, Repr

/-- Comparisons of doubles. `une` holds when an operand is no number, all others fail. -/
inductive Predicate where
  | ogt | olt | oge | ole | oeq | une | one
  deriving DecidableEq, Repr

/-- Connectives on truth values. -/
inductive Connective where
  | and | or
  deriving DecidableEq, Repr

/-- Routines of the mathematical library. -/
inductive Routine where
  | sqrt | sin | cos | tan | fabs | log10 | log | exp | trunc | floor | ceil
  deriving DecidableEq, Repr

/-- What a call of the printing routine prints. -/
inductive Printed where
  | number (value : Operand)
  | string (value : Text)
  | newline
  deriving Repr

/-- Operations that have a result. -/
inductive Operation where
  | load (slot : Text)
  | arithmetic (op : Arithmetic) (a b : Operand)
  | compare (p : Predicate) (a b : Operand)
  | connect (op : Connective) (a b : Register)
  | toDouble (truth : Register)
  | call (routine : Routine) (arg : Operand)
  | print (what : Printed)
  deriving Repr

/-- Instructions inside a block. -/
inductive Instr where
  | allocate (slot : Text)
  | store (value : Operand) (slot : Text)
  | define (result : Register) (op : Operation)
  deriving Repr

/-- How a block ends. -/
inductive Terminator where
  | jump (target : Label)
  | branch (cond : Register) (yes no : Label)
  | ret
  deriving DecidableEq, Repr

/-- Instructions that are carried out in order, and what comes after them. -/
structure Block where
  label : Label
  code : List Instr
  terminator : Terminator
  deriving Repr

/-- A module: its string constants, the routines it calls, and the blocks of its function, entry
first. -/
structure Module where
  strings : List Text
  routines : List Routine
  blocks : List Block
  deriving Repr

namespace Printed

/-- The format string of a printing call. -/
def format : Printed → Text
  | number _ => "%.15g"
  | string _ => "%s"
  | newline => "\n"

/-- The string constants of a printing call, the format first. -/
def strings (p : Printed) : List Text :=
  match p with
  | string value => [p.format, value]
  | _ => [p.format]

end Printed

namespace Instr

/-- The register that an instruction defines. -/
def result? : Instr → Option Register
  | define r _ => some r
  | _ => none

end Instr

namespace Block

/-- The registers that a block defines, in order. -/
def results (b : Block) : List Register := b.code.filterMap Instr.result?

end Block

namespace Module

/-- The registers of a module in the order of its text. -/
def results (m : Module) : List Register := m.blocks.flatMap Block.results

/-- The block with a label. -/
def block? (m : Module) (l : Label) : Option Block := m.blocks.find? (·.label == l)

end Module

end Llvm

/-- The library routine that computes a function. Rounding adds one half first. -/
def MathFunction.routine : MathFunction → Llvm.Routine
  | sqrt | raiz => .sqrt
  | sin | sen => .sin
  | cos => .cos
  | tan => .tan
  | abs => .fabs
  | log => .log10
  | ln => .log
  | exp => .exp
  | trunc => .trunc
  | floor | round => .floor
  | ceil => .ceil

end Pseudocode
