import Pseudocode.Proofs.Llvm.Draft
import Pseudocode.Proofs.Program.Mentions

/-!
# What has a module

A program that has a module is numeric: it computes with numbers and truth values by known operators
and by functions of one argument, it writes numbers and literal texts, and it has neither arrays nor
input. And it reads no variable that the text in front has not bound: the slots that were made when
the work comes to a place are the variables that were bound up to there.
-/

namespace Pseudocode

open Llvm

namespace Expr

/-- A node of arithmetic: a number, a truth value, a variable, a known operator, or a function from
numbers to numbers with its argument. -/
def IsArithmetic : Expr → Prop
  | .number _ _ | .boolean _ _ | .name _ _ | .unary _ _ _ => True
  | .binary _ op _ _ => op ∈ BinaryOp.known
  | .call _ function args => (MathFunction.ofName? function).isSome ∧ args.length = 1
  | .text _ _ | .element _ _ _ => False

/-- A literal text, or arithmetic all through. -/
def IsPrintable : Expr → Prop
  | .text _ _ => True
  | e => ∀ a ∈ e.parts, a.IsArithmetic

end Expr

/-- A statement that has neither arrays nor input, and texts only where it writes them. -/
def Stmt.IsNumeric : Stmt → Prop
  | .dimension _ _ _ | .assignElement _ _ _ _ | .read _ _ => False
  | .print _ exprs => ∀ e ∈ exprs, e.IsPrintable
  | s => ∀ e ∈ s.expressions, e.IsArithmetic

namespace Mention

/-- The variables that were met behind a place in the text, if the place may follow those in front
of it. -/
def meet? (slots : List Text) : Mention → Option (List Text)
  | read _ x => if slots.contains x then some slots else none
  | bind x => some (addNew slots x)

end Mention

/-- The variables that were met behind some places in the text. -/
def meetAll? (slots : List Text) (ms : List Mention) : Option (List Text) :=
  ms.foldlM Mention.meet? slots

variable {slots slots' : List Text} {ms ns : List Mention}

theorem meetAll?_append : meetAll? slots (ms ++ ns) = (meetAll? slots ms).bind (meetAll? · ns) :=
  List.foldlM_append

theorem meetAll?_cons {m : Mention} :
    meetAll? slots (m :: ms) = (m.meet? slots).bind (meetAll? · ms) := rfl

/-- The variables that were met are those that were there and those that were bound. -/
theorem mem_of_meetAll? (met : meetAll? slots ms = some slots') {x : Text} :
    x ∈ slots' ↔ x ∈ slots ∨ .bind x ∈ ms := by
  induction ms generalizing slots with
  | nil =>
    cases met
    simp
  | cons m ms ih =>
    rw [meetAll?_cons, Option.bind_eq_some_iff] at met
    obtain ⟨middle, first, rest⟩ := met
    rw [ih rest]
    cases m with
    | read loc y =>
      rw [Mention.meet?] at first
      split at first
      · cases first
        simp
      · cases first
    | bind y =>
      cases first
      rw [mem_addNew_iff, List.mem_cons, or_assoc]
      simp

/-- What is read was there, or was bound in front. -/
theorem bound_of_meetAll? {before after : List Mention} {loc : Option Location} {x : Text}
    (met : meetAll? slots (before ++ .read loc x :: after) = some slots') :
    x ∈ slots ∨ .bind x ∈ before := by
  rw [meetAll?_append, Option.bind_eq_some_iff] at met
  obtain ⟨middle, first, rest⟩ := met
  rw [meetAll?_cons, Option.bind_eq_some_iff] at rest
  obtain ⟨_, own, _⟩ := rest
  rw [Mention.meet?] at own
  split at own
  · next there =>
    have mem : x ∈ middle := by simpa using there
    exact (mem_of_meetAll? first).1 mem
  · cases own

namespace Llvm.Lowering

variable {α β : Type}

/-- The work succeeds only where something holds. -/
def Requires (x : Lowering α) (P : Prop) : Prop := ∀ d a d', x d = (.ok a, d') → P

namespace Requires

variable {x : Lowering α} {f : α → Lowering β} {P Q : Prop}

theorem trivial (x : Lowering α) : Requires x True := fun _ _ _ _ => True.intro

theorem mono (h : Requires x P) (further : P → Q) : Requires x Q :=
  fun d a d' ran => further (h d a d' ran)

theorem bind (first : Requires x P) (rest : ∀ a, Requires (f a) Q) :
    Requires (x >>= f) (P ∧ Q) := by
  intro d b d' ran
  obtain ⟨a, m, ran, later⟩ := Action.bind_eq_ok.1 ran
  exact ⟨first d a m ran, rest a m b d' later⟩

/-- What the rest needs, whatever comes first. -/
theorem step (rest : ∀ a, Requires (f a) Q) : Requires (x >>= f) Q :=
  ((trivial x).bind rest).mono And.right

/-- What the first part needs, whatever follows. -/
theorem last (first : Requires x P) : Requires (x >>= f) P :=
  (first.bind fun a => trivial (f a)).mono And.left

theorem refuse (loc : Option Location) (u : Unsupported) :
    Requires (refuse loc u : Lowering α) P := by
  intro d a d' ran
  cases ran

theorem binary (loc : Option Location) (op : BinaryOp) (a b : Operand) :
    Requires (binary loc op a b) (op ∈ BinaryOp.known) := by
  cases op with
  | other => exact refuse _ _
  | _ => exact (trivial _).mono fun _ => by decide

-- The recursion is that of the expression.
theorem expression (e : Expr) : Requires e.lower (∀ a ∈ e.parts, a.IsArithmetic) := by
  rw [Expr.parts.eq_def, List.forall_mem_cons]
  cases e with
  | number | boolean | name =>
    exact (trivial _).mono fun _ => ⟨True.intro, List.forall_mem_nil _⟩
  | unary _ _ a =>
    rw [Expr.lower]
    exact (expression a).last.mono fun inner => ⟨True.intro, inner⟩
  | binary loc op a b =>
    rw [Expr.lower]
    refine ((expression a).bind fun _ => (expression b).bind fun _ => binary loc op _ _).mono ?_
    rintro ⟨left, right, known⟩
    exact ⟨known, List.forall_mem_append.2 ⟨left, right⟩⟩
  | call loc function args =>
    rw [Expr.lower]
    cases found : MathFunction.ofName? function with
    | none => exact refuse _ _
    | some f =>
      rcases args with _ | ⟨arg, _ | ⟨second, others⟩⟩
      · exact refuse _ _
      · refine (expression arg).last.mono fun inner => ⟨⟨Option.isSome_of_eq_some found, rfl⟩, ?_⟩
        exact forall_partsOfAll_single inner
      · exact refuse _ _
  | text | element =>
    rw [Expr.lower]
    exact refuse _ _

theorem condition (e : Expr) : Requires (condition e) (∀ a ∈ partsOfAll [e], a.IsArithmetic) :=
  (expression e).last.mono forall_partsOfAll_single

theorem printed (e : Expr) : Requires (printed e) e.IsPrintable := by
  cases e with
  | text => exact (trivial _).mono id
  | _ => exact (expression _).last

theorem printAll (es : List Expr) : Requires (printAll es) (∀ e ∈ es, e.IsPrintable) := by
  induction es with
  | nil => exact (trivial _).mono fun _ => List.forall_mem_nil _
  | cons e rest ih => exact ((printed e).bind fun _ => ih).mono List.forall_mem_cons.2

-- The recursion is that of the program.
mutual

theorem statement (s : Stmt) : Requires s.lower (∀ a ∈ s.parts, a.IsNumeric) := by
  rw [Stmt.parts.eq_def, List.forall_mem_cons]
  match s with
  | .assign _ _ e =>
    rw [Stmt.lower]
    refine (expression e).last.mono fun own => ⟨?_, List.forall_mem_nil _⟩
    exact forall_partsOfAll_single own
  | .print _ exprs =>
    rw [Stmt.lower]
    exact (printAll exprs).last.mono fun own => ⟨own, List.forall_mem_nil _⟩
  | .branch _ cond yes no =>
    rw [Stmt.lower]
    refine ((condition cond).bind fun _ => step fun _ => step fun _ => step fun _ => step fun _ =>
      (block yes).bind fun _ => step fun _ => (otherBranch no).last).mono ?_
    exact fun ⟨own, inYes, inNo⟩ => ⟨own, List.forall_mem_append.2 ⟨inYes, inNo⟩⟩
  | .select _ subject cases otherwise =>
    rw [Stmt.lower]
    refine ((expression subject).bind fun _ => step fun _ =>
      (caseList _ _ cases).bind fun _ => (block otherwise).last).mono ?_
    rintro ⟨own, ⟨labels, inCases⟩, inRest⟩
    exact ⟨forall_partsOfAll_cons own labels, List.forall_mem_append.2 ⟨inCases, inRest⟩⟩
  | .whileLoop _ cond body =>
    rw [Stmt.lower]
    exact step fun _ => step fun _ => step fun _ => step fun _ =>
      (condition cond).bind fun _ => step fun _ => (block body).last
  | .repeatLoop _ body cond =>
    rw [Stmt.lower]
    refine (step fun _ => step fun _ => step fun _ => (block body).bind fun _ =>
      (condition cond).last).mono ?_
    exact fun ⟨inner, own⟩ => ⟨own, inner⟩
  | .forLoop _ _ _ _ _ body =>
    rw [Stmt.lower]
    refine (step fun _ => step fun _ => step fun _ => step fun _ => step fun _ => step fun _ =>
      step fun _ => step fun _ => (block body).last).mono fun inner => ⟨?_, inner⟩
    exact List.forall_mem_nil _
  | .dimension _ _ _ | .assignElement _ _ _ _ | .read _ _ =>
    rw [Stmt.lower]
    exact refuse _ _

theorem block (ss : List Stmt) : Requires (lowerBlock ss) (∀ a ∈ partsOfBlock ss, a.IsNumeric) := by
  match ss with
  | [] => exact (trivial _).mono fun _ => List.forall_mem_nil _
  | s :: rest =>
    rw [lowerBlock, partsOfBlock]
    exact ((statement s).bind fun _ => block rest).mono List.forall_mem_append.2

theorem otherBranch (no : Option (List Stmt)) :
    Requires (lowerElse no) (∀ a ∈ partsOfElse no, a.IsNumeric) := by
  match no with
  | none => exact (trivial _).mono fun _ => List.forall_mem_nil _
  | some body =>
    rw [lowerElse, partsOfElse]
    exact block body

theorem caseList (subject : Operand) (endLabel : Label) (cases : List (Expr × List Stmt)) :
    Requires (lowerCases subject endLabel cases)
      ((∀ a ∈ partsOfAll (cases.map (·.1)), a.IsArithmetic) ∧
        ∀ a ∈ partsOfCases cases, a.IsNumeric) := by
  match cases with
  | [] => exact (trivial _).mono fun _ => ⟨List.forall_mem_nil _, List.forall_mem_nil _⟩
  | (label, body) :: rest =>
    rw [lowerCases, partsOfCases]
    refine ((expression label).bind fun _ => step fun _ => step fun _ => step fun _ =>
      step fun _ => (block body).bind fun _ => step fun _ => caseList subject endLabel rest).mono ?_
    rintro ⟨own, inBody, labels, others⟩
    exact ⟨forall_partsOfAll_cons own labels, List.forall_mem_append.2 ⟨inBody, others⟩⟩

end

end Requires

/-- The work meets variables as they are read and bound at some places in the text. -/
def Meets (x : Lowering α) (ms : List Mention) : Prop :=
  ∀ d a d', x d = (.ok a, d') → meetAll? d.slots ms = some d'.slots

namespace Meets

variable {x : Lowering α} {f : α → Lowering β}

theorem bind (first : Meets x ms) (rest : ∀ a, Meets (f a) ns) : Meets (x >>= f) (ms ++ ns) := by
  intro d b d' ran
  obtain ⟨a, m, ran, later⟩ := Action.bind_eq_ok.1 ran
  rw [meetAll?_append, first d a m ran]
  exact rest a m b d' later

/-- A step that leaves the slots alone, and then the rest. -/
theorem step (first : Meets x []) (rest : ∀ a, Meets (f a) ns) : Meets (x >>= f) ns :=
  first.bind rest

/-- What was bound before need not be met again. -/
theorem of_bound {y : Text} (mem : .bind y ∈ ms) (h : Meets x (ms ++ [.bind y])) : Meets x ms := by
  intro d a d' ran
  have met := h d a d' ran
  rw [meetAll?_append, Option.bind_eq_some_iff] at met
  obtain ⟨slots, first, last⟩ := met
  have there : slots.contains y = true := by simpa using (mem_of_meetAll? first).2 (.inr mem)
  have same : addNew slots y = slots := by rw [addNew, if_pos there]
  rw [first, ← same]
  exact last

theorem pure (a : α) : Meets (pure a : Lowering α) [] := by
  intro d _ d' ran
  cases ran
  rfl

theorem refuse (loc : Option Location) (u : Unsupported) (ms : List Mention) :
    Meets (refuse loc u : Lowering α) ms := by
  intro d a d' ran
  cases ran

theorem define (op : Operation) : Meets (define op) [] := by
  intro d _ d' ran
  cases ran
  rfl

theorem newLabel (role : Role) : Meets (newLabel role) [] := by
  intro d _ d' ran
  cases ran
  rfl

theorem finish (t : Terminator) (next : Label) : Meets (finish t next) [] := by
  intro d _ d' ran
  cases ran
  rfl

theorem assign (name : Text) (v : Operand) : Meets (assign name v) [.bind name] := by
  intro d _ d' ran
  cases ran
  rfl

theorem print (what : Printed) : Meets (print what) [] := by
  intro d _ d' ran
  cases ran
  rfl

theorem value (op : Operation) :
    Meets (do return .register (← Lowering.define op) : Lowering Operand) [] :=
  (define op).step fun _ => pure _

theorem callRoutine (f : Routine) (v : Operand) : Meets (callRoutine f v) [] := by
  intro d _ d' ran
  cases ran
  rfl

theorem connective (op : Connective) (a b : Operand) : Meets (connective op a b) [] :=
  (define _).step fun _ => (define _).step fun _ => (define _).step fun _ => value _

theorem comparison (p : Predicate) (a b : Operand) : Meets (comparison p a b) [] :=
  (define _).step fun _ => value _

theorem binary (loc : Option Location) (op : BinaryOp) (a b : Operand) :
    Meets (binary loc op a b) [] := by
  cases op with
  | add | sub | mul | div => exact value _
  | gt | lt | ge | le | eq | ne => exact comparison _ _ _
  | and | or => exact connective _ _ _
  | other => exact refuse _ _ _

theorem apply (f : MathFunction) (v : Operand) : Meets (apply f v) [] := by
  cases f with
  | round => exact (value _).step fun _ => callRoutine _ _
  | _ => exact callRoutine _ _

theorem load (loc : Option Location) (x : Text) :
    Meets (do
      if (← Action.state).slots.contains x then return .register (← Lowering.define (.load x))
      else Lowering.refuse loc (.unassigned x) : Lowering Operand) [.read loc x] := by
  intro d a d' ran
  obtain ⟨_, _, read, ran⟩ := Action.bind_eq_ok.1 ran
  cases read
  split at ran
  · next there =>
    have same := value _ _ _ _ ran
    rw [meetAll?_cons, Mention.meet?, if_pos there]
    exact same
  · cases ran

-- The recursion is that of the expression.
theorem expression (e : Expr) : Meets e.lower e.mentions := by
  cases e with
  | number | boolean =>
    rw [Expr.lower, Expr.mentions]
    exact pure _
  | name loc x =>
    rw [Expr.lower, Expr.mentions]
    exact load loc x
  | unary _ _ a =>
    rw [Expr.lower, Expr.mentions, ← List.append_nil a.mentions]
    exact (expression a).bind fun _ => value _
  | binary loc op a b =>
    rw [Expr.lower, Expr.mentions, ← List.append_nil b.mentions]
    exact (expression a).bind fun _ => (expression b).bind fun _ => binary loc op _ _
  | call loc function args =>
    rw [Expr.lower, Expr.mentions]
    cases MathFunction.ofName? function with
    | none => exact refuse _ _ _
    | some f =>
      rcases args with _ | ⟨arg, _ | ⟨second, others⟩⟩
      · exact refuse _ _ _
      · rw [mentionsOfAll, mentionsOfAll]
        exact (expression arg).bind fun _ => apply f _
      · exact refuse _ _ _
  | text | element =>
    rw [Expr.lower]
    exact refuse _ _ _

theorem condition (e : Expr) : Meets (condition e) e.mentions := by
  rw [← List.append_nil e.mentions]
  exact (expression e).bind fun _ => define _

theorem printed (e : Expr) : Meets (printed e) e.mentions := by
  have value : Meets (do let v ← e.lower; Lowering.print (.number v)) e.mentions := by
    rw [← List.append_nil e.mentions]
    exact (expression e).bind fun _ => print _
  cases e with
  | text => exact print _
  | _ => exact value

theorem printAll (es : List Expr) : Meets (printAll es) (mentionsOfAll es) := by
  induction es with
  | nil => exact pure _
  | cons e rest ih => exact (printed e).bind fun _ => ih

-- The recursion is that of the program.
mutual

theorem statement (s : Stmt) : Meets s.lower s.mentions := by
  match s with
  | .assign _ name e =>
    rw [Stmt.lower, Stmt.mentions]
    exact (expression e).bind fun _ => assign name _
  | .print _ exprs =>
    rw [Stmt.lower, Stmt.mentions, ← List.append_nil (mentionsOfAll exprs)]
    exact (printAll exprs).bind fun _ => print _
  | .branch _ cond yes no =>
    rw [Stmt.lower, Stmt.mentions, ← List.append_nil (mentionsOfElse no)]
    exact (condition cond).bind fun _ => (newLabel _).step fun _ => (newLabel _).step fun _ =>
      (newLabel _).step fun _ => (finish _ _).step fun _ => (block yes).bind fun _ =>
      (finish _ _).step fun _ => (otherBranch no).bind fun _ => finish _ _
  | .select _ subject cases otherwise =>
    rw [Stmt.lower, Stmt.mentions, ← List.append_nil (mentionsOfBlock otherwise)]
    exact (expression subject).bind fun _ => (newLabel _).step fun _ =>
      (caseList _ _ cases).bind fun _ => (block otherwise).bind fun _ => finish _ _
  | .whileLoop _ cond body =>
    rw [Stmt.lower, Stmt.mentions, ← List.append_nil (mentionsOfBlock body)]
    exact (newLabel _).step fun _ => (newLabel _).step fun _ => (newLabel _).step fun _ =>
      (finish _ _).step fun _ => (condition cond).bind fun _ => (finish _ _).step fun _ =>
      (block body).bind fun _ => finish _ _
  | .repeatLoop _ body cond =>
    rw [Stmt.lower, Stmt.mentions, ← List.append_nil cond.mentions]
    exact (newLabel _).step fun _ => (newLabel _).step fun _ => (finish _ _).step fun _ =>
      (block body).bind fun _ => (condition cond).bind fun _ => finish _ _
  | .forLoop _ var _ _ _ body =>
    rw [Stmt.lower, Stmt.mentions]
    -- The variable is stored to again behind the body, but it has a slot by then.
    have bound : .bind var ∈ Mention.bind var :: mentionsOfBlock body := List.mem_cons_self ..
    exact of_bound bound <| (assign var _).bind fun _ => (newLabel _).step fun _ =>
      (newLabel _).step fun _ => (newLabel _).step fun _ => (finish _ _).step fun _ =>
      (define _).step fun _ => (define _).step fun _ => (finish _ _).step fun _ =>
      (block body).bind fun _ =>
      (define _).step fun _ => (value _).step fun _ => (assign var _).bind fun _ => finish _ _
  | .dimension _ _ _ | .assignElement _ _ _ _ | .read _ _ =>
    rw [Stmt.lower]
    exact refuse _ _ _

theorem block (ss : List Stmt) : Meets (lowerBlock ss) (mentionsOfBlock ss) := by
  match ss with
  | [] =>
    rw [lowerBlock, mentionsOfBlock]
    exact pure _
  | s :: rest =>
    rw [lowerBlock, mentionsOfBlock]
    exact (statement s).bind fun _ => block rest

theorem otherBranch (no : Option (List Stmt)) : Meets (lowerElse no) (mentionsOfElse no) := by
  match no with
  | none =>
    rw [lowerElse, mentionsOfElse]
    exact pure _
  | some body =>
    rw [lowerElse, mentionsOfElse]
    exact block body

theorem caseList (subject : Operand) (endLabel : Label) (cases : List (Expr × List Stmt)) :
    Meets (lowerCases subject endLabel cases) (mentionsOfCases cases) := by
  match cases with
  | [] =>
    rw [lowerCases, mentionsOfCases]
    exact pure _
  | (label, body) :: rest =>
    rw [lowerCases, mentionsOfCases]
    exact (expression label).bind fun _ => (newLabel _).step fun _ => (newLabel _).step fun _ =>
      (define _).step fun _ => (finish _ _).step fun _ => (block body).bind fun _ =>
      (finish _ _).step fun _ => caseList subject endLabel rest

end

end Meets

end Llvm.Lowering

end Pseudocode
