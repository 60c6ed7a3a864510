import Pseudocode.Action
import Pseudocode.Diagnostic.Basic
import Pseudocode.Llvm.Module
import Pseudocode.Program.Basic

/-!
# Numeric programs as LLVM code

Every variable is a double in a slot of its own, zero at the start, and a truth value is stored as
one or zero. Arrays, input and texts other than printed literals have no such form and are refused,
as is a variable that no earlier statement of the text assigns.

Code is made in the order of the text. The state of the work is the block that is being written, the
blocks that are finished, and what the module will have to declare. A block is finished by its
terminator, and only then does the work go on in another block, so no block has two terminators.
-/

namespace Pseudocode

/-- What has no form in the numeric subset. -/
inductive Unsupported where
  | arrays
  | input
  | textValue
  | unassigned (name : Text)
  | function (name : Text)
  | argumentCount (function : Text) (count : Nat)
  | operator (op : BinaryOp)
  deriving DecidableEq, Repr

/-- How a diagnostic names it. -/
def Unsupported.message : Unsupported → Text
  | arrays => "arrays"
  | input => "Leer"
  | textValue => "text values outside Escribir"
  | unassigned name => "read of '" ++ name ++ "' before any assignment"
  | function name => "function '" ++ name ++ "'"
  | argumentCount f count => f ++ " with " ++ Text.ofNat count ++ " arguments"
  | operator op => "operator '" ++ op.symbol ++ "'"

/-- A construct that cannot be lowered, and its place. -/
structure UnsupportedError where
  loc : Option Location
  construct : Unsupported
  deriving DecidableEq, Repr

/-- The diagnostic of an unsupported construct. -/
def UnsupportedError.diagnostic (e : UnsupportedError) : Diagnostic where
  stage := .unsupported
  loc := e.loc
  summary := e.construct.message

namespace Llvm

/-- An element at the end of a list, unless it is there already. -/
def addNew {α : Type} [BEq α] (xs : List α) (x : α) : List α :=
  if xs.contains x then xs else xs ++ [x]

/-- The work on a module: the slots, strings and routines met so far in order of first use, how many
labels and registers were given out, the block being written, and the finished blocks. -/
structure Draft where
  slots : List Text := []
  strings : List Text := []
  routines : List Routine := []
  labels : Nat := 0
  registers : Nat := 0
  label : Label
  code : List Instr := []
  finished : List Block := []
  deriving Repr

/-- A piece of the work, which changes the draft or finds something unsupported. -/
abbrev Lowering := Action Draft UnsupportedError

namespace Lowering

/-- Refuse a construct. -/
def refuse {α : Type} (loc : Option Location) (u : Unsupported) : Lowering α := Action.fail ⟨loc, u⟩

/-- Add an instruction to the block being written. -/
def emit (i : Instr) : Lowering Unit := Action.update fun d => { d with code := d.code ++ [i] }

/-- Add an operation to the block being written, with a register for its result. -/
def define (op : Operation) : Lowering Register := fun d =>
  (.ok d.registers,
   { d with code := d.code ++ [.define d.registers op], registers := d.registers + 1 })

/-- Name a block that will be written later. -/
def newLabel (role : Role) : Lowering Label := fun d =>
  (.ok (.numbered role d.labels), { d with labels := d.labels + 1 })

/-- Finish the block being written and go on with another. -/
def finish (t : Terminator) (next : Label) : Lowering Unit :=
  Action.update fun d =>
    { d with finished := d.finished ++ [⟨d.label, d.code, t⟩], label := next, code := [] }

/-- Make sure that a variable has a slot. -/
def declare (name : Text) : Lowering Unit :=
  Action.update fun d => { d with slots := addNew d.slots name }

/-- Store a number in the slot of a variable. -/
def assign (name : Text) (value : Operand) : Lowering Unit := do
  declare name
  emit (.store value name)

/-- Print something, and make sure that its strings are among the constants. -/
def print (what : Printed) : Lowering Unit := do
  Action.update fun d => { d with strings := what.strings.foldl addNew d.strings }
  let _ ← define (.print what)

/-- Call a routine, and make sure that it is declared. -/
def callRoutine (r : Routine) (arg : Operand) : Lowering Operand := do
  Action.update fun d => { d with routines := addNew d.routines r }
  return .register (← define (.call r arg))

/-- Do arithmetic. -/
def arithmetic (op : Arithmetic) (a b : Operand) : Lowering Operand := do
  return .register (← define (.arithmetic op a b))

/-- Compare, with one or zero as the result. -/
def comparison (p : Predicate) (a b : Operand) : Lowering Operand := do
  let truth ← define (.compare p a b)
  return .register (← define (.toDouble truth))

/-- The truth value of a number: anything but zero. What is no number is false. -/
def truth (v : Operand) : Lowering Register := define (.compare .one v (.constant 0))

/-- Connect two numbers as truth values, with one or zero as the result. -/
def connective (op : Connective) (a b : Operand) : Lowering Operand := do
  let a ← truth a
  let b ← truth b
  let c ← define (.connect op a b)
  return .register (← define (.toDouble c))

/-- Apply an operator to two numbers. -/
def binary (loc : Option Location) (op : BinaryOp) (a b : Operand) : Lowering Operand :=
  match op with
  | .add => arithmetic .fadd a b
  | .sub => arithmetic .fsub a b
  | .mul => arithmetic .fmul a b
  | .div => arithmetic .fdiv a b
  | .gt => comparison .ogt a b
  | .lt => comparison .olt a b
  | .ge => comparison .oge a b
  | .le => comparison .ole a b
  | .eq => comparison .oeq a b
  | .ne => comparison .une a b
  | .and => connective .and a b
  | .or => connective .or a b
  | .other _ => refuse loc (.operator op)

/-- Apply a function to a number. -/
def apply (f : MathFunction) (arg : Operand) : Lowering Operand :=
  match f with
  | .round => do callRoutine f.routine (← arithmetic .fadd arg (.constant 0.5))
  | _ => callRoutine f.routine arg

end Lowering

end Llvm

open Llvm

/-- Make the code of an expression. -/
def Expr.lower : Expr → Lowering Operand
  | .number _ n => pure (.constant n)
  | .boolean _ b => pure (.constant (if b then 1 else 0))
  | .name loc x => do
    if (← Action.state).slots.contains x then return .register (← Lowering.define (.load x))
    else Lowering.refuse loc (.unassigned x)
  | .unary _ _ e => do
    let v ← e.lower
    Lowering.arithmetic .fsub (.constant 0) v
  | .binary loc op a b => do
    let a ← a.lower
    let b ← b.lower
    Lowering.binary loc op a b
  | .call loc function args =>
    match MathFunction.ofName? function with
    | none => Lowering.refuse loc (.function function)
    | some f =>
      match args with
      | [arg] => do
        let v ← arg.lower
        Lowering.apply f v
      | _ => Lowering.refuse loc (.argumentCount function args.length)
  | .text loc _ => Lowering.refuse loc .textValue
  | .element loc _ _ => Lowering.refuse loc .arrays

namespace Llvm

namespace Lowering

/-- Make the code of a condition. -/
def condition (e : Expr) : Lowering Register := do
  let v ← e.lower
  truth v

/-- Print one expression. A literal text is printed as it is. -/
def printed : Expr → Lowering Unit
  | .text _ t => print (.string t)
  | e => do
    let v ← e.lower
    print (.number v)

/-- Print expressions, one after another. -/
def printAll : List Expr → Lowering Unit
  | [] => pure ()
  | e :: rest => do
    printed e
    printAll rest

end Lowering

end Llvm

mutual

/-- Make the code of a statement. -/
def Stmt.lower : Stmt → Lowering Unit
  | .assign _ name e => do
    let v ← e.lower
    Lowering.assign name v
  | .print _ exprs => do
    Lowering.printAll exprs
    Lowering.print .newline
  | .branch _ cond yes no => do
    let c ← Lowering.condition cond
    let thenLabel ← Lowering.newLabel .ifThen
    let elseLabel ← Lowering.newLabel .ifElse
    let endLabel ← Lowering.newLabel .ifEnd
    Lowering.finish (.branch c thenLabel elseLabel) thenLabel
    lowerBlock yes
    Lowering.finish (.jump endLabel) elseLabel
    lowerElse no
    Lowering.finish (.jump endLabel) endLabel
  | .select _ subject cases otherwise => do
    let v ← subject.lower
    let endLabel ← Lowering.newLabel .switchEnd
    lowerCases v endLabel cases
    lowerBlock otherwise
    Lowering.finish (.jump endLabel) endLabel
  | .whileLoop _ cond body => do
    let condLabel ← Lowering.newLabel .whileCond
    let bodyLabel ← Lowering.newLabel .whileBody
    let endLabel ← Lowering.newLabel .whileEnd
    Lowering.finish (.jump condLabel) condLabel
    let c ← Lowering.condition cond
    Lowering.finish (.branch c bodyLabel endLabel) bodyLabel
    lowerBlock body
    Lowering.finish (.jump condLabel) endLabel
  | .repeatLoop _ body cond => do
    let bodyLabel ← Lowering.newLabel .repeatBody
    let endLabel ← Lowering.newLabel .repeatEnd
    Lowering.finish (.jump bodyLabel) bodyLabel
    lowerBlock body
    let c ← Lowering.condition cond
    Lowering.finish (.branch c endLabel bodyLabel) endLabel
  | .forLoop _ var first last step body => do
    Lowering.assign var (.constant first)
    let condLabel ← Lowering.newLabel .forCond
    let bodyLabel ← Lowering.newLabel .forBody
    let endLabel ← Lowering.newLabel .forEnd
    Lowering.finish (.jump condLabel) condLabel
    let counter ← Lowering.define (.load var)
    let c ← Lowering.define (.compare .ole (.register counter) (.constant last))
    Lowering.finish (.branch c bodyLabel endLabel) bodyLabel
    lowerBlock body
    let counter ← Lowering.define (.load var)
    let next ← Lowering.arithmetic .fadd (.register counter) (.constant step)
    Lowering.assign var next
    Lowering.finish (.jump condLabel) endLabel
  | .dimension loc _ _ => Lowering.refuse loc .arrays
  | .assignElement loc _ _ _ => Lowering.refuse loc .arrays
  | .read loc _ => Lowering.refuse loc .input

/-- Make the code of statements, one after another. -/
def lowerBlock : List Stmt → Lowering Unit
  | [] => pure ()
  | s :: rest => do
    s.lower
    lowerBlock rest

/-- Make the code of the second branch, if there is one. -/
def lowerElse : Option (List Stmt) → Lowering Unit
  | none => pure ()
  | some body => lowerBlock body

/-- Make the code that compares the subject with one label after another. -/
def lowerCases (subject : Operand) (endLabel : Label) : List (Expr × List Stmt) → Lowering Unit
  | [] => pure ()
  | (label, body) :: rest => do
    let v ← label.lower
    let caseLabel ← Lowering.newLabel .switchCase
    let nextLabel ← Lowering.newLabel .switchNext
    let c ← Lowering.define (.compare .oeq subject v)
    Lowering.finish (.branch c caseLabel nextLabel) caseLabel
    lowerBlock body
    Lowering.finish (.jump endLabel) nextLabel
    lowerCases subject endLabel rest

end

namespace Llvm

/-- The label of the block that the entry leads to. -/
def Label.start : Label := .numbered .body 0

/-- The work on a module before its first statement. -/
def Draft.initial : Draft := { label := .start, labels := 1 }

namespace Draft

/-- The block that makes every slot and sets it to zero. -/
def entry (d : Draft) : Block where
  label := .entry
  code := d.slots.flatMap fun x => [.allocate x, .store (.constant 0) x]
  terminator := .jump .start

/-- The block being written, made the last to be carried out. -/
def last (d : Draft) : Block := ⟨d.label, d.code, .ret⟩

/-- The finished module: the block being written returns, and all blocks are put in order. -/
def toModule (d : Draft) : Module where
  strings := d.strings
  routines := d.routines
  blocks := d.entry ::
    (d.finished ++ [d.last]).mergeSort fun a b => a.label.rank ≤ b.label.rank

end Draft

end Llvm

/-- The module of a numeric program. -/
def Program.lower (p : Program) : Except UnsupportedError Llvm.Module :=
  match lowerBlock p.body .initial with
  | (.ok (), d) => .ok d.toModule
  | (.error e, _) => .error e

end Pseudocode
