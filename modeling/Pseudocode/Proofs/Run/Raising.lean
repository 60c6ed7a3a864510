import Pseudocode.Proofs.Run.Walk

/-!
# What is raised where

Everything that can go wrong in the effects of a statement, said once. A fault of an expression is
one of a node in it, and has the place of this node; the further faults of an effect have the place
that the effect was given.
-/

namespace Pseudocode

open Pseudocode.Action (FailsOnly failsOnly_pure failsOnly_fail)

/-- The faults of a node of an expression, apart from those of the nodes in it. -/
inductive Expr.Raises : Expr → Fault → Prop
  | name {loc : Option Location} {x : Text} : Raises (.name loc x) (.undefinedVariable x)
  | unary {loc : Option Location} {op : UnaryOp} {operand : Expr} {v : Value} {f : Fault} :
      Eval.unary op v = .error f → Raises (.unary loc op operand) f
  | binary {loc : Option Location} {op : BinaryOp} {lhs rhs : Expr} {arrays : Arrays} {v w : Value}
      {f : Fault} : Eval.binary arrays op v w = .error f → Raises (.binary loc op lhs rhs) f
  | array {loc : Option Location} {x : Text} {index : Expr} {store : Store} {f : Fault} :
      Eval.arrayNamed store x = .error f → Raises (.element loc x index) f
  | slot {loc : Option Location} {x : Text} {index : Expr} {store : Store} {id : Nat} {v : Value}
      {f : Fault} : Eval.slotAt store x id v = .error f → Raises (.element loc x index) f
  | function {loc : Option Location} {x : Text} {args : List Expr} :
      Raises (.call loc x args) (.undefinedFunction x)
  | call {loc : Option Location} {x : Text} {args : List Expr} {f : CallFault} :
      Raises (.call loc x args) (.call f)

/-- An error of one of some nodes, at the place of the node. -/
def RuntimeError.IsOf (nodes : List Expr) (e : RuntimeError) : Prop :=
  ∃ a ∈ nodes, e.loc = a.loc ∧ a.Raises e.fault

namespace Eval

variable {nodes : List Expr} {a : Expr}

theorem isOf_fault {α : Type} (mem : a ∈ nodes) {f : Fault} (raised : a.Raises f) :
    FailsOnly (RuntimeError.IsOf nodes) (fault a.loc f : Eval α) :=
  failsOnly_fail ⟨a, mem, rfl, raised⟩

theorem isOf_located {α : Type} (mem : a ∈ nodes) {r : Except Fault α}
    (raised : ∀ f, r = .error f → a.Raises f) :
    FailsOnly (RuntimeError.IsOf nodes) (located a.loc r) := by
  intro n e n' failed
  cases r with
  | ok => cases failed
  | error f =>
    cases failed
    exact ⟨a, mem, rfl, raised f rfl⟩

theorem isOf_call (mem : a ∈ nodes) (raised : ∀ f, a.Raises (.call f)) (draws : Nat → Number)
    (store : Store) (b : Builtin) (args : List Value) :
    FailsOnly (RuntimeError.IsOf nodes) (call draws store a.loc b args) := by
  intro n e n' failed
  simp only [call] at failed
  split at failed
  · simp only [Action.onPart] at failed
    split at failed
    · cases failed
    · cases failed
      exact ⟨a, mem, rfl, raised _⟩
  · cases failed
    exact ⟨a, mem, rfl, raised _⟩

end Eval

-- The recursion is that of the expression.
mutual

/-- An evaluation fails with an error of a node of its expression. -/
theorem Expr.isOf_eval (draws : Nat → Number) (store : Store) (e : Expr) {nodes : List Expr}
    (among : e.parts ⊆ nodes) : FailsOnly (RuntimeError.IsOf nodes) (e.eval draws store) := by
  rw [Expr.parts.eq_def, List.cons_subset] at among
  obtain ⟨own, inner⟩ := among
  match e with
  | .text _ _ | .number _ _ | .boolean _ _ =>
    rw [Expr.eval]
    exact failsOnly_pure _
  | .name _ _ =>
    rw [Expr.eval]
    split
    · exact failsOnly_pure _
    · exact Eval.isOf_fault own .name
  | .unary _ _ a =>
    rw [Expr.eval]
    refine (a.isOf_eval draws store inner).bind fun v => ?_
    exact Eval.isOf_located own fun _ => .unary
  | .binary _ _ a b =>
    rw [Expr.eval]
    obtain ⟨left, right⟩ := List.append_subset.1 inner
    refine (a.isOf_eval draws store left).bind fun lhs => ?_
    refine (b.isOf_eval draws store right).bind fun rhs => ?_
    exact Eval.isOf_located own fun _ => .binary
  | .element _ _ index =>
    rw [Expr.eval]
    refine (Eval.isOf_located own fun _ => .array).bind fun id => ?_
    refine (index.isOf_eval draws store inner).bind fun i => ?_
    refine (Eval.isOf_located own fun _ => .slot).bind fun slot => ?_
    exact failsOnly_pure _
  | .call _ _ args =>
    rw [Expr.eval]
    split
    · exact Eval.isOf_fault own .function
    · refine (isOf_evalAll draws store args inner).bind fun vs => ?_
      exact Eval.isOf_call own (fun _ => .call) draws store _ vs

theorem isOf_evalAll (draws : Nat → Number) (store : Store) (es : List Expr) {nodes : List Expr}
    (among : partsOfAll es ⊆ nodes) :
    FailsOnly (RuntimeError.IsOf nodes) (evalAll draws store es) := by
  match es with
  | [] =>
    rw [evalAll]
    exact failsOnly_pure _
  | e :: rest =>
    rw [partsOfAll] at among
    obtain ⟨first, others⟩ := List.append_subset.1 among
    rw [evalAll]
    refine (e.isOf_eval draws store first).bind fun v => ?_
    exact (isOf_evalAll draws store rest others).bind fun vs => failsOnly_pure _

end

namespace Effect

variable {α : Type}

/-- The errors of an effect. -/
def Raises : Effect α → RuntimeError → Prop
  | checkpoint loc, e =>
    (∃ cause, e = ⟨loc, .interrupted cause⟩) ∨ ∃ limit, e = ⟨loc, .stepLimit limit⟩
  | value x, e => e.IsOf x.parts
  | bindVariable loc name _, e => constant? name ≠ none ∧ e = ⟨loc, .constantAssigned name⟩
  | declaredSize loc name size, e =>
    e.IsOf size.parts ∨ e = ⟨loc, .alreadyExists name⟩ ∨
      ∃ host store v f, Run.arraySize host store name v = .error f ∧ e = ⟨loc, f⟩
  | elementTarget loc name index x, e => e.IsOf ((Expr.element loc name index).parts ++ x.parts)
  | printedLine exprs, e => e.IsOf (partsOfAll exprs)
  | writeLine loc _, e => ∃ cause, e = ⟨loc, .outputFailed cause⟩
  | readLine loc name, e => ∃ cause, e = ⟨loc, .readFailed name cause⟩
  | bindArray _ _, _ | storeElement _ _ _, _ => False

end Effect

namespace Run

variable {α : Type} {host : Host} {m m' : Machine} {halt : Halt}

theorem evaluating_eq_error {x : Store → Eval α} (failed : evaluating x m = (.error halt, m')) :
    ∃ e drawn, halt = .failed e ∧ x m.store m.channels.drawn = (.error e, drawn) := by
  simp only [evaluating] at failed
  split at failed
  · cases failed
  · next e drawn evaluated =>
    cases failed
    exact ⟨e, drawn, rfl, evaluated⟩

theorem raises_declaredSize (host : Host) (loc : Option Location) (name : Text) (size : Expr)
    (store : Store) : FailsOnly (Effect.declaredSize loc name size).Raises
      (declaredSize host loc name size store) := by
  refine FailsOnly.bind ?_ fun v => ?_
  · exact fun n e n' failed => .inl (size.isOf_eval host.draws store (List.Subset.refl _) failed)
  · split
    · exact failsOnly_fail (.inr (.inl rfl))
    · intro n e n' failed
      cases sized : arraySize host store name v with
      | ok =>
        rw [sized] at failed
        cases failed
      | error f =>
        rw [sized] at failed
        cases failed
        exact .inr (.inr ⟨host, store, v, f, sized, rfl⟩)

theorem raises_elementTarget (host : Host) (loc : Option Location) (name : Text)
    (index value : Expr) (store : Store) :
    FailsOnly (Effect.elementTarget loc name index value).Raises
      (elementTarget host loc name index value store) := by
  have own : Expr.element loc name index ∈ (Expr.element loc name index).parts ++ value.parts := by
    rw [Expr.parts]
    exact List.mem_cons_self
  have inner : index.parts ⊆ (Expr.element loc name index).parts ++ value.parts := by
    rw [Expr.parts]
    exact List.subset_cons_of_subset _ (List.subset_append_left _ _)
  refine (Eval.isOf_located own fun _ => .array).bind fun id => ?_
  refine (index.isOf_eval host.draws store inner).bind fun i => ?_
  refine (Eval.isOf_located own fun _ => .slot).bind fun slot => ?_
  refine (value.isOf_eval host.draws store (List.subset_append_right _ _)).bind fun v => ?_
  exact failsOnly_pure _

end Run

/-- An effect fails with one of its errors. -/
theorem Effect.raises_of_perform {α : Type} {effect : Effect α} {host : Host} {m m' : Machine}
    {halt : Halt} (failed : effect.perform host m = (.error halt, m')) :
    ∃ e, halt = .failed e ∧ effect.Raises e := by
  cases effect with
  | checkpoint loc =>
    simp only [perform, Run.checkpoint] at failed
    split at failed
    · cases failed
      exact ⟨_, rfl, .inl ⟨_, rfl⟩⟩
    · split at failed
      · cases failed
        exact ⟨_, rfl, .inr ⟨_, rfl⟩⟩
      · cases failed
  | value x =>
    rw [perform, Run.value] at failed
    obtain ⟨e, drawn, rfl, evaluated⟩ := Run.evaluating_eq_error failed
    exact ⟨e, rfl, x.isOf_eval host.draws _ (List.Subset.refl _) evaluated⟩
  | bindVariable loc name v =>
    simp only [perform, Run.bindVariable, Store.set?] at failed
    cases bound : constant? name with
    | none =>
      rw [bound] at failed
      cases failed
    | some c =>
      rw [bound] at failed
      cases failed
      exact ⟨_, rfl, by rw [bound]; exact Option.some_ne_none c, rfl⟩
  | declaredSize loc name size =>
    obtain ⟨e, drawn, rfl, evaluated⟩ := Run.evaluating_eq_error failed
    exact ⟨e, rfl, Run.raises_declaredSize host loc name size _ evaluated⟩
  | elementTarget loc name index value =>
    obtain ⟨e, drawn, rfl, evaluated⟩ := Run.evaluating_eq_error failed
    exact ⟨e, rfl, Run.raises_elementTarget host loc name index value _ evaluated⟩
  | printedLine exprs =>
    obtain ⟨e, drawn, rfl, evaluated⟩ := Run.evaluating_eq_error failed
    have printed := (isOf_evalAll host.draws m.store exprs (List.Subset.refl _)).bind fun vs =>
      failsOnly_pure (Text.concat (vs.map m.store.textOf))
    exact ⟨e, rfl, printed evaluated⟩
  | bindArray | storeElement => cases failed
  | writeLine loc line =>
    simp only [perform, Run.writeLine] at failed
    split at failed
    · cases failed
      exact ⟨_, rfl, _, rfl⟩
    · cases failed
  | readLine loc name =>
    simp only [perform, Run.readLine] at failed
    split at failed
    · cases failed
    · cases failed
      exact ⟨_, rfl, _, rfl⟩

end Pseudocode
