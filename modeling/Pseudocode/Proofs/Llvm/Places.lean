import Pseudocode.Llvm.Lower
import Pseudocode.Proofs.Outcome
import Pseudocode.Proofs.Program.Places

/-!
# Modules of programs without places

No instruction, label or string of a module is made from a place: a place is only given to what is
refused. So a program without its places has the same module, or is refused for the same construct.
-/

namespace Pseudocode

/-- A refused construct without its place. -/
def UnsupportedError.bare (e : UnsupportedError) : UnsupportedError := { e with loc := none }

open Pseudocode.Action (viewError_bind viewError_pure)

open Llvm

namespace Llvm.Lowering

variable {α : Type} (loc : Option Location)

theorem viewError_refuse (u : Unsupported) :
    (refuse loc u : Lowering α).viewError UnsupportedError.bare = refuse none u := rfl

theorem viewError_binary (op : BinaryOp) (a b : Operand) :
    (binary loc op a b).viewError UnsupportedError.bare = binary none op a b := by
  cases op with
  | _ => rfl

theorem viewError_apply (f : MathFunction) (arg : Operand) :
    (apply f arg).viewError UnsupportedError.bare = apply f arg := by
  cases f with
  | _ => rfl

end Llvm.Lowering

-- The recursion is that of the expression.
theorem Expr.lower_bare (e : Expr) :
    e.bare.lower = e.lower.viewError UnsupportedError.bare := by
  cases e with
  | text | number | boolean =>
    rw [Expr.bare, Expr.lower, Expr.lower]
    rfl
  | name _ x =>
    rw [Expr.bare, Expr.lower, Expr.lower, viewError_bind]
    congr 1
    funext d
    split
    · rfl
    · rfl
  | unary _ _ a =>
    rw [Expr.bare, Expr.lower, Expr.lower, viewError_bind, a.lower_bare]
    rfl
  | binary _ _ a b =>
    rw [Expr.bare, Expr.lower, Expr.lower, viewError_bind, a.lower_bare]
    simp only [viewError_bind, b.lower_bare, Lowering.viewError_binary]
  | element _ _ index =>
    rw [Expr.bare, Expr.lower, Expr.lower]
    rfl
  | call _ function args =>
    rw [Expr.bare, Expr.lower, Expr.lower]
    cases MathFunction.ofName? function with
    | none => rfl
    | some f =>
      rcases args with _ | ⟨arg, _ | ⟨second, others⟩⟩
      · rfl
      · simp only [bareAll, viewError_bind, arg.lower_bare, Lowering.viewError_apply]
      · simp [bareAll_eq, Lowering.viewError_refuse]

namespace Llvm.Lowering

theorem condition_bare (e : Expr) :
    condition e.bare = (condition e).viewError UnsupportedError.bare := by
  rw [condition, condition, viewError_bind, e.lower_bare]
  rfl

theorem printed_bare (e : Expr) :
    printed e.bare = (printed e).viewError UnsupportedError.bare := by
  cases e with
  | text => rfl
  | number | boolean | name | unary | binary | element | call =>
    simp only [printed, viewError_bind, ← Expr.lower_bare]
    rfl

theorem printAll_bare (es : List Expr) :
    printAll (es.map Expr.bare) = (printAll es).viewError UnsupportedError.bare := by
  induction es with
  | nil => rfl
  | cons e rest ih =>
    rw [List.map_cons, printAll, printAll, viewError_bind, printed_bare, ih]

end Llvm.Lowering

-- The recursion is that of the program.
mutual

theorem Stmt.lower_bare (s : Stmt) :
    s.bare.lower = s.lower.viewError UnsupportedError.bare := by
  match s with
  | .assign _ _ e =>
    rw [Stmt.bare, Stmt.lower, Stmt.lower, viewError_bind, e.lower_bare]
    rfl
  | .print _ exprs =>
    rw [Stmt.bare, Stmt.lower, Stmt.lower, viewError_bind, Lowering.printAll_bare]
    rfl
  | .branch _ cond yes no =>
    rw [Stmt.bare, Stmt.lower, Stmt.lower]
    simp only [viewError_bind, Lowering.condition_bare, lowerBlock_bare yes, lowerElse_bare no]
    rfl
  | .select _ subject cases otherwise =>
    rw [Stmt.bare, Stmt.lower, Stmt.lower]
    simp only [viewError_bind, subject.lower_bare, lowerCases_bare _ _ cases,
      lowerBlock_bare otherwise]
    rfl
  | .whileLoop _ cond body =>
    rw [Stmt.bare, Stmt.lower, Stmt.lower]
    simp only [viewError_bind, Lowering.condition_bare, lowerBlock_bare body]
    rfl
  | .repeatLoop _ body cond =>
    rw [Stmt.bare, Stmt.lower, Stmt.lower]
    simp only [viewError_bind, Lowering.condition_bare, lowerBlock_bare body]
    rfl
  | .forLoop _ var first last step body =>
    rw [Stmt.bare, Stmt.lower, Stmt.lower]
    simp only [viewError_bind, lowerBlock_bare body]
    rfl
  | .dimension _ _ _ | .assignElement _ _ _ _ | .read _ _ =>
    rw [Stmt.bare, Stmt.lower, Stmt.lower]
    rfl

theorem lowerBlock_bare (ss : List Stmt) :
    lowerBlock (bareBlock ss) = (lowerBlock ss).viewError UnsupportedError.bare := by
  match ss with
  | [] =>
    rw [bareBlock, lowerBlock]
    rfl
  | s :: rest =>
    rw [bareBlock, lowerBlock, lowerBlock, viewError_bind, s.lower_bare, lowerBlock_bare rest]

theorem lowerElse_bare (no : Option (List Stmt)) :
    lowerElse (bareElse no) = (lowerElse no).viewError UnsupportedError.bare := by
  match no with
  | none =>
    rw [bareElse, lowerElse]
    rfl
  | some body =>
    rw [bareElse, lowerElse, lowerElse]
    exact lowerBlock_bare body

theorem lowerCases_bare (subject : Operand) (endLabel : Label) (cases : List (Expr × List Stmt)) :
    lowerCases subject endLabel (bareCases cases) =
      (lowerCases subject endLabel cases).viewError UnsupportedError.bare := by
  match cases with
  | [] =>
    rw [bareCases, lowerCases]
    rfl
  | (label, body) :: rest =>
    rw [bareCases, lowerCases, lowerCases]
    simp only [viewError_bind, label.lower_bare, lowerBlock_bare body,
      lowerCases_bare subject endLabel rest]
    rfl

end

/-- A program without its places has the same module, or is refused for the same construct. -/
theorem Program.lower_bare (p : Program) :
    p.bare.lower = p.lower.mapError UnsupportedError.bare := by
  rw [Program.lower, Program.lower, Program.bare, ← bareBlock_eq, lowerBlock_bare]
  rcases h : lowerBlock p.body .initial with ⟨e | _, d⟩
  · rw [Action.viewError_of_error h]
    rfl
  · rw [Action.viewError_of_ok h]
    rfl

end Pseudocode
