import Pseudocode.Run.Fault
import Pseudocode.Store

/-!
# The value of an expression

Evaluating an expression looks at the store and changes nothing in it: the only thing that can
change is how many random numbers have been drawn. Operands, arguments and indices are evaluated
from left to right, all of them, and the first fault is the result.
-/

namespace Pseudocode

/-- An evaluation, whose state is how many random numbers have been drawn. -/
abbrev Eval := Action Nat RuntimeError

namespace Eval

/-- Fail at a place. -/
def fault {α : Type} (loc : Option Location) (f : Fault) : Eval α := Action.fail ⟨loc, f⟩

/-- What the operator gives for two values. -/
def binary (arrays : Arrays) (op : BinaryOp) (lhs rhs : Value) : Except Fault Value :=
  let comparison (numbers : Number → Number → Bool) (texts : Text → Text → Bool) :
      Except Fault Value :=
    match lhs, rhs with
    | .number a, .number b => .ok (.boolean (numbers a b))
    | .text a, .text b => .ok (.boolean (texts a b))
    | _, _ => .error (.incomparable op lhs.kind rhs.kind)
  let mismatch : Except Fault Value := .error (.binaryOperands op lhs.kind rhs.kind)
  match op with
  | .add =>
    match lhs, rhs with
    | .number a, .number b => .ok (.number (a + b))
    | .text a, _ => .ok (.text (a ++ rhs.toText arrays))
    | _, .text b => .ok (.text (lhs.toText arrays ++ b))
    | _, _ => mismatch
  | .sub =>
    match lhs, rhs with
    | .number a, .number b => .ok (.number (a - b))
    | _, _ => mismatch
  | .mul =>
    match lhs, rhs with
    | .number a, .number b => .ok (.number (a * b))
    | _, _ => mismatch
  | .div =>
    match lhs, rhs with
    | .number a, .number b => if b == 0 then .error .divisionByZero else .ok (.number (a / b))
    | _, _ => mismatch
  | .gt => comparison (fun a b => decide (b < a)) (fun a b => decide (b < a))
  | .lt => comparison (fun a b => decide (a < b)) (fun a b => decide (a < b))
  | .ge => comparison (fun a b => decide (b ≤ a)) (fun a b => !decide (a < b))
  | .le => comparison (fun a b => decide (a ≤ b)) (fun a b => !decide (b < a))
  | .eq => .ok (.boolean (lhs.same rhs))
  | .ne => .ok (.boolean (!lhs.same rhs))
  | .and => .ok (.boolean (lhs.truthy && rhs.truthy))
  | .or => .ok (.boolean (lhs.truthy || rhs.truthy))
  | .other _ => .error (.unsupportedOperator op)

/-- What the operator gives for a value. -/
def unary (op : UnaryOp) (v : Value) : Except Fault Value :=
  match op, v with
  | .negate, .number n => .ok (.number (-n))
  | _, _ => .error (.unaryOperand op v.kind)

/-- The array that a name stands for. -/
def arrayNamed (store : Store) (name : Text) : Except Fault Nat :=
  match store.get? name with
  | none => .error (.undefinedVariable name)
  | some (.array id) => .ok id
  | some _ => .error (.notArray name)

/-- The slot that an index stands for. Indices count from one. -/
def slotAt (store : Store) (name : Text) (id : Nat) (index : Value) : Except Fault Nat :=
  let length := (store.arrays.elements id).size
  match index with
  | .number n =>
    if !n.isIntegral then .error (.invalidIndex (store.textOf index) name)
    else if n < 1 ∨ Number.ofNat length < n then
      .error (.indexOutOfRange (store.textOf index) length name)
    else .ok (n.natPart - 1)
  | _ => .error (.invalidIndex (store.textOf index) name)

/-- Fail at a place if there is a fault. -/
def located {α : Type} (loc : Option Location) (r : Except Fault α) : Eval α :=
  Action.ofExcept (r.mapError fun f => ⟨loc, f⟩)

/-- Call a function with as many arguments as it takes. -/
def call (draws : Nat → Number) (store : Store) (loc : Option Location) (b : Builtin)
    (args : List Value) : Eval Value :=
  if b.takes args.length then
    Action.onPart id (fun n _ => n) (fun f => ⟨loc, .call f⟩) (b.apply draws store.arrays args)
  else fault loc (.call (.argumentCount b args.length))

end Eval

mutual

/-- The value of an expression. -/
def Expr.eval (draws : Nat → Number) (store : Store) : Expr → Eval Value
  | .text _ t => pure (.text t)
  | .number _ n => pure (.number n)
  | .boolean _ b => pure (.boolean b)
  | .name loc name =>
    match store.get? name with
    | some v => pure v
    | none => Eval.fault loc (.undefinedVariable name)
  | .unary loc op e => do
    let v ← e.eval draws store
    Eval.located loc (Eval.unary op v)
  | .binary loc op a b => do
    let lhs ← a.eval draws store
    let rhs ← b.eval draws store
    Eval.located loc (Eval.binary store.arrays op lhs rhs)
  | .element loc name index => do
    let id ← Eval.located loc (Eval.arrayNamed store name)
    let i ← index.eval draws store
    let slot ← Eval.located loc (Eval.slotAt store name id i)
    return (store.arrays.elements id).getD slot .uninitialized
  | .call loc name args =>
    match Builtin.ofName? name with
    | none => Eval.fault loc (.undefinedFunction name)
    | some b => do
      let vs ← evalAll draws store args
      Eval.call draws store loc b vs

/-- The values of expressions, from left to right. -/
def evalAll (draws : Nat → Number) (store : Store) : List Expr → Eval (List Value)
  | [] => pure []
  | e :: rest => do
    let v ← e.eval draws store
    let vs ← evalAll draws store rest
    return v :: vs

end

end Pseudocode
