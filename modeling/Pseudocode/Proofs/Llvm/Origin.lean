import Pseudocode.Llvm.Lower
import Pseudocode.Proofs.Program.Origin

/-!
# Where a construct is refused

Nothing but an expression or a statement without a form in the numeric subset is refused, and it is
refused at its own place. So what is refused in a program has a place of the program.
-/

namespace Pseudocode

open Llvm
open Pseudocode.Action (FailsOnly failsOnly_pure failsOnly_fail)

namespace Llvm.Lowering

variable {P : Option Location → Prop} {α β : Type}

/-- The work refuses something only at places with a property. -/
def Refuses (P : Option Location → Prop) (x : Lowering α) : Prop := FailsOnly (fun e => P e.loc) x

namespace Refuses

variable {x : Lowering α} {f : α → Lowering β}

theorem bind (first : Refuses P x) (rest : ∀ a, Refuses P (f a)) : Refuses P (x >>= f) :=
  FailsOnly.bind first rest

theorem pure (a : α) : Refuses P (pure a : Lowering α) := failsOnly_pure a

theorem refuse {loc : Option Location} (own : P loc) (u : Unsupported) :
    Refuses P (refuse loc u : Lowering α) := failsOnly_fail own

/-- What always succeeds refuses nothing. -/
theorem of_ok (ok : ∀ d, ∃ a d', x d = (.ok a, d')) : Refuses P x := by
  intro d e d' failed
  obtain ⟨a, d'', succeeded⟩ := ok d
  rw [succeeded] at failed
  cases failed

theorem define (op : Operation) : Refuses P (define op) := of_ok fun _ => ⟨_, _, rfl⟩

theorem newLabel (role : Role) : Refuses P (newLabel role) := of_ok fun _ => ⟨_, _, rfl⟩

theorem finish (t : Terminator) (next : Label) : Refuses P (finish t next) :=
  of_ok fun _ => ⟨_, _, rfl⟩

theorem assign (name : Text) (value : Operand) : Refuses P (assign name value) :=
  of_ok fun _ => ⟨_, _, rfl⟩

theorem print (what : Printed) : Refuses P (print what) := of_ok fun _ => ⟨_, _, rfl⟩

theorem arithmetic (op : Arithmetic) (a b : Operand) : Refuses P (arithmetic op a b) :=
  of_ok fun _ => ⟨_, _, rfl⟩

theorem apply (f : MathFunction) (arg : Operand) : Refuses P (apply f arg) := by
  cases f with
  | _ => exact of_ok fun _ => ⟨_, _, rfl⟩

theorem binary {loc : Option Location} (own : P loc) (op : BinaryOp) (a b : Operand) :
    Refuses P (binary loc op a b) := by
  cases op with
  | other => exact refuse own _
  | _ => exact of_ok fun _ => ⟨_, _, rfl⟩

-- The recursion is that of the expression.
theorem expression (e : Expr) (all : ∀ a ∈ e.parts, P a.loc) : Refuses P e.lower := by
  rw [Expr.parts.eq_def] at all
  obtain ⟨own, inner⟩ := List.forall_mem_cons.1 all
  cases e with
  | number | boolean => exact pure _
  | name =>
    rw [Expr.lower]
    refine bind (of_ok fun _ => ⟨_, _, rfl⟩) fun d => ?_
    split
    · exact (define _).bind fun _ => pure _
    · exact refuse own _
  | unary _ _ a =>
    rw [Expr.lower]
    exact (expression a inner).bind fun _ => arithmetic _ _ _
  | binary _ op a b =>
    rw [Expr.lower]
    obtain ⟨left, right⟩ := List.forall_mem_append.1 inner
    exact (expression a left).bind fun _ => (expression b right).bind fun _ => binary own op _ _
  | call _ function args =>
    rw [Expr.lower]
    cases MathFunction.ofName? function with
    | none => exact refuse own _
    | some f =>
      rcases args with _ | ⟨arg, _ | ⟨second, others⟩⟩
      · exact refuse own _
      · refine (expression arg fun a part => inner a ?_).bind fun _ => apply f _
        exact List.mem_append_left _ part
      · exact refuse own _
  | text | element =>
    rw [Expr.lower]
    exact refuse own _

theorem condition (e : Expr) (all : ∀ a ∈ e.parts, P a.loc) : Refuses P (condition e) :=
  (expression e all).bind fun _ => define _

theorem printed (e : Expr) (all : ∀ a ∈ e.parts, P a.loc) : Refuses P (printed e) := by
  cases e with
  | text => exact print _
  | _ => exact (expression _ all).bind fun _ => print _

theorem printAll (es : List Expr) (all : ∀ a ∈ partsOfAll es, P a.loc) :
    Refuses P (printAll es) := by
  induction es with
  | nil => exact pure _
  | cons e rest ih =>
    rw [partsOfAll] at all
    obtain ⟨first, others⟩ := List.forall_mem_append.1 all
    exact (printed e first).bind fun _ => ih others

-- The recursion is that of the program.
mutual

theorem statement (s : Stmt) (all : ∀ a ∈ s.parts, a.IsPlaced P) : Refuses P s.lower := by
  rw [Stmt.parts.eq_def] at all
  obtain ⟨placed, inner⟩ := List.forall_mem_cons.1 all
  have own := placed.own
  match s with
  | .assign _ _ e =>
    rw [Stmt.lower]
    have value := expression e (placed.operand (List.mem_singleton_self _))
    exact value.bind fun _ => assign _ _
  | .print _ exprs =>
    rw [Stmt.lower]
    exact (printAll exprs placed.expressions).bind fun _ => print _
  | .branch _ cond yes no =>
    rw [Stmt.lower]
    obtain ⟨inYes, inNo⟩ := List.forall_mem_append.1 inner
    refine (condition cond (placed.operand (List.mem_singleton_self _))).bind fun _ => ?_
    refine (newLabel _).bind fun _ => (newLabel _).bind fun _ => (newLabel _).bind fun _ => ?_
    refine (finish _ _).bind fun _ => (block yes inYes).bind fun _ => ?_
    exact (finish _ _).bind fun _ => (otherBranch no inNo).bind fun _ => finish _ _
  | .select _ subject cases otherwise =>
    rw [Stmt.lower]
    obtain ⟨inCases, inRest⟩ := List.forall_mem_append.1 inner
    refine (expression subject (placed.operand List.mem_cons_self)).bind fun _ => ?_
    refine (newLabel _).bind fun _ => ?_
    refine (caseList _ _ cases (fun e mem => ?_) inCases).bind fun _ => ?_
    · exact placed.operand (List.mem_cons_of_mem _ mem)
    · exact (block otherwise inRest).bind fun _ => finish _ _
  | .whileLoop _ cond body =>
    rw [Stmt.lower]
    refine (newLabel _).bind fun _ => (newLabel _).bind fun _ => (newLabel _).bind fun _ => ?_
    refine (finish _ _).bind fun _ => ?_
    refine (condition cond (placed.operand (List.mem_singleton_self _))).bind fun _ => ?_
    exact (finish _ _).bind fun _ => (block body inner).bind fun _ => finish _ _
  | .repeatLoop _ body cond =>
    rw [Stmt.lower]
    refine (newLabel _).bind fun _ => (newLabel _).bind fun _ => ?_
    refine (finish _ _).bind fun _ => (block body inner).bind fun _ => ?_
    refine (condition cond (placed.operand (List.mem_singleton_self _))).bind fun _ => ?_
    exact finish _ _
  | .forLoop _ _ _ _ _ body =>
    rw [Stmt.lower]
    refine (assign _ _).bind fun _ => ?_
    refine (newLabel _).bind fun _ => (newLabel _).bind fun _ => (newLabel _).bind fun _ => ?_
    refine (finish _ _).bind fun _ => (define _).bind fun _ => (define _).bind fun _ => ?_
    refine (finish _ _).bind fun _ => (block body inner).bind fun _ => ?_
    refine (define _).bind fun _ => (arithmetic _ _ _).bind fun _ => ?_
    exact (assign _ _).bind fun _ => finish _ _
  | .dimension _ _ _ | .assignElement _ _ _ _ | .read _ _ =>
    rw [Stmt.lower]
    exact refuse own _

theorem block (ss : List Stmt) (all : ∀ a ∈ partsOfBlock ss, a.IsPlaced P) :
    Refuses P (lowerBlock ss) := by
  match ss with
  | [] =>
    rw [lowerBlock]
    exact pure _
  | s :: rest =>
    rw [partsOfBlock] at all
    obtain ⟨first, others⟩ := List.forall_mem_append.1 all
    rw [lowerBlock]
    exact (statement s first).bind fun _ => block rest others

theorem otherBranch (no : Option (List Stmt)) (all : ∀ a ∈ partsOfElse no, a.IsPlaced P) :
    Refuses P (lowerElse no) := by
  match no with
  | none =>
    rw [lowerElse]
    exact pure _
  | some body =>
    rw [partsOfElse] at all
    rw [lowerElse]
    exact block body all

theorem caseList (subject : Operand) (endLabel : Label) (cases : List (Expr × List Stmt))
    (labels : ∀ e ∈ cases.map (·.1), ∀ a ∈ e.parts, P a.loc)
    (all : ∀ a ∈ partsOfCases cases, a.IsPlaced P) :
    Refuses P (lowerCases subject endLabel cases) := by
  match cases with
  | [] =>
    rw [lowerCases]
    exact pure _
  | (label, body) :: rest =>
    rw [List.map_cons] at labels
    obtain ⟨own, labels⟩ := List.forall_mem_cons.1 labels
    rw [partsOfCases] at all
    obtain ⟨first, others⟩ := List.forall_mem_append.1 all
    rw [lowerCases]
    refine (expression label own).bind fun _ => ?_
    refine (newLabel _).bind fun _ => (newLabel _).bind fun _ => (define _).bind fun _ => ?_
    refine (finish _ _).bind fun _ => (block body first).bind fun _ => ?_
    exact (finish _ _).bind fun _ => caseList subject endLabel rest labels others

end

end Refuses

end Llvm.Lowering

/-- What is refused in a program has a place of the program. -/
theorem Program.place_of_lower {P : Option Location → Prop} {p : Program}
    (placed : ∀ s ∈ p.statements, s.IsPlaced P) {e : UnsupportedError}
    (refused : p.lower = .error e) : P e.loc := by
  rw [lower] at refused
  split at refused
  · cases refused
  · next error d stopped =>
    cases refused
    exact Lowering.Refuses.block p.body placed stopped

end Pseudocode
