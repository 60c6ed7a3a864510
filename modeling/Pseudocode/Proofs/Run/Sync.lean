import Pseudocode.Proofs.Program.Fitness
import Pseudocode.Proofs.Run.Raising

/-!
# Refusals that no source leads to

The run has refusals for trees that only a host can build: an operator that the language does not
know, and a constant that is to be bound. A program that was compiled from a source meets neither.
The fault of a run is the fault of one of its effects, and an effect on a tree without such parts
has another fault, if any.

What a run says when it refuses is told apart by how the message starts, since a message may quote
any text further on.
-/

namespace Pseudocode

open Pseudocode.Action (FailsOnly failsOnly_pure failsOnly_fail)

namespace Fault

/-- A fault that a tree from a source can have. -/
def IsOfSource : Fault → Prop
  | constantAssigned _ | unsupportedOperator _ => False
  | _ => True

end Fault

/-- An error that a tree from a source can have. -/
def RuntimeError.IsOfSource (e : RuntimeError) : Prop := e.fault.IsOfSource

namespace Eval

variable {f : Fault}

theorem isOfSource_of_binary {arrays : Arrays} {op : BinaryOp} {lhs rhs : Value}
    (known : op ∈ BinaryOp.known) (h : binary arrays op lhs rhs = .error f) : f.IsOfSource := by
  have mismatch {a b : Value.Kind} : (Fault.binaryOperands op a b).IsOfSource := trivial
  cases op with
  | other => simp [BinaryOp.known] at known
  | _ =>
    simp only [binary] at h
    grind [Fault.IsOfSource]

theorem isOfSource_of_unary {op : UnaryOp} {v : Value} (h : unary op v = .error f) :
    f.IsOfSource := by
  simp only [unary] at h
  split at h
  · cases h
  · cases h
    trivial

theorem isOfSource_of_arrayNamed {store : Store} {name : Text}
    (h : arrayNamed store name = .error f) : f.IsOfSource := by
  simp only [arrayNamed] at h
  split at h
  · cases h
    trivial
  · cases h
  · cases h
    trivial

theorem isOfSource_of_slotAt {store : Store} {name : Text} {id : Nat} {index : Value}
    (h : slotAt store name id index = .error f) : f.IsOfSource := by
  simp only [slotAt] at h
  grind [Fault.IsOfSource]

end Eval

/-- A node that a source can spell has no fault that only a tree can have. -/
theorem Expr.isOfSource_of_raises {a : Expr} {f : Fault} (fit : a.IsOperable)
    (raised : a.Raises f) : f.IsOfSource := by
  cases raised with
  | name | function | call => trivial
  | unary h => exact Eval.isOfSource_of_unary h
  | binary h => exact Eval.isOfSource_of_binary fit h
  | array h => exact Eval.isOfSource_of_arrayNamed h
  | slot h => exact Eval.isOfSource_of_slotAt h

theorem RuntimeError.IsOf.isOfSource {nodes : List Expr} {e : RuntimeError} (h : e.IsOf nodes)
    (fit : ∀ a ∈ nodes, a.IsOperable) : e.IsOfSource := by
  obtain ⟨a, mem, -, raised⟩ := h
  exact a.isOfSource_of_raises (fit a mem) raised

theorem Run.isOfSource_of_arraySize {host : Host} {store : Store} {name : Text} {size : Value}
    {f : Fault} (h : arraySize host store name size = .error f) : f.IsOfSource := by
  simp only [arraySize] at h
  grind [Fault.IsOfSource]

/-- A run that stops for a reason that a tree from a source can give. -/
def Halt.IsOfSource : Halt → Prop
  | failed e => e.IsOfSource
  | exhausted => True

namespace Effect

variable {α : Type}

/-- An effect of a tree whose operators are those of the language and that binds no constant. -/
def IsFit : Effect α → Prop
  | value e | declaredSize _ _ e => ∀ a ∈ e.parts, a.IsOperable
  | elementTarget _ _ index e => ∀ a ∈ partsOfAll [index, e], a.IsOperable
  | printedLine exprs => ∀ a ∈ partsOfAll exprs, a.IsOperable
  | bindVariable _ name _ => constant? name = none
  | checkpoint _ | bindArray _ _ | storeElement _ _ _ | writeLine _ _ | readLine _ _ => True

theorem failsOnly_perform (host : Host) {effect : Effect α} (fit : effect.IsFit) :
    FailsOnly Halt.IsOfSource (effect.perform host) := by
  intro m halt m' failed
  obtain ⟨e, rfl, raised⟩ := raises_of_perform failed
  cases effect with
  | checkpoint =>
    obtain ⟨cause, rfl⟩ | ⟨limit, rfl⟩ := raised
    · trivial
    · trivial
  | value | printedLine => exact raised.isOfSource fit
  | bindVariable => exact absurd fit raised.1
  | declaredSize =>
    obtain node | rfl | ⟨host, store, v, f, h, rfl⟩ := raised
    · exact node.isOfSource fit
    · trivial
    · exact Run.isOfSource_of_arraySize h
  | elementTarget loc name index value =>
    refine raised.isOfSource (List.forall_mem_append.2 ⟨?_, fun a part => fit a ?_⟩)
    · rw [Expr.parts]
      exact List.forall_mem_cons.2 ⟨trivial, fun a part => fit a (List.mem_append_left _ part)⟩
    · rw [partsOfAll, partsOfAll, partsOfAll]
      exact List.mem_append_right _ (List.mem_append_left _ part)
  | bindArray | storeElement => exact raised.elim
  | writeLine | readLine =>
    obtain ⟨cause, rfl⟩ := raised
    trivial

end Effect

namespace Script

variable {α β : Type}

/-- All effects of a script are fit. -/
def IsFit : Script α → Prop
  | done _ => True
  | exhausted => True
  | act effect next => effect.IsFit ∧ ∀ b, (next b).IsFit

theorem IsFit.bind {x : Script α} {f : α → Script β} (first : x.IsFit) (rest : ∀ a, (f a).IsFit) :
    (x >>= f).IsFit := by
  induction x with
  | done a => exact rest a
  | exhausted => trivial
  | act effect next ih => exact ⟨first.1, fun b => ih b (first.2 b)⟩

/-- A walk through fit effects stops only for reasons that a tree from a source can give. -/
theorem IsFit.failsOnly_run (host : Host) {x : Script α} (fit : x.IsFit) :
    FailsOnly Halt.IsOfSource (x.run host) := by
  induction x with
  | done a => exact failsOnly_pure a
  | exhausted => exact failsOnly_fail trivial
  | act effect next ih => exact (effect.failsOnly_perform host fit.1).bind fun b => ih b (fit.2 b)

end Script

namespace Stmt

/-- A statement whose own operators are those of the language and that itself binds no constant. -/
def IsFit (s : Stmt) : Prop :=
  (∀ e ∈ s.expressions, e.IsOperable) ∧ ∀ x ∈ s.assigned, constant? x = none

end Stmt

theorem Stmt.IsFit.operand {s : Stmt} (fit : s.IsFit) {e : Expr} (mem : e ∈ s.operands) :
    ∀ a ∈ e.parts, a.IsOperable :=
  fun a part => fit.1 a (mem_expressions mem part)

/-- The effects of a fit statement are fit. -/
theorem closed_isFit : Script.Closed Stmt.IsFit Script.IsFit where
  pure _ := trivial
  exhausted := trivial
  bind := .bind
  checkpoint _ := ⟨trivial, fun _ => trivial⟩
  value fit mem := ⟨fit.operand mem, fun _ => trivial⟩
  assign fit := ⟨fit.operand (List.mem_singleton_self _), fun _ =>
    ⟨fit.2 _ (List.mem_singleton_self _), fun _ => trivial⟩⟩
  dimension fit := ⟨fit.operand (List.mem_singleton_self _), fun _ => ⟨trivial, fun _ => trivial⟩⟩
  assignElement fit := ⟨fit.1, fun _ => ⟨trivial, fun _ => trivial⟩⟩
  print fit := ⟨fit.1, fun _ => ⟨trivial, fun _ => trivial⟩⟩
  read fit mem := ⟨trivial, fun _ => ⟨fit.2 _ (List.mem_map_of_mem mem), fun _ => trivial⟩⟩
  count fit _ := ⟨fit.2 _ (List.mem_singleton_self _), fun _ => trivial⟩

/-- How the messages start with which a run refuses a tree that no source spells. -/
def treeRefusals : List Text :=
  ["cannot assign to constant", "unsupported operator", "unsupported statement",
    "unsupported expression"]

namespace Text

/-- A text that no refusal of a tree starts with, and that starts with none. -/
def IsOtherOpening (t : Text) : Prop :=
  ∀ r ∈ treeRefusals, ¬ r.bytes <+: t.bytes ∧ ¬ t.bytes <+: r.bytes

instance (t : Text) : Decidable t.IsOtherOpening :=
  inferInstanceAs (Decidable (∀ r ∈ treeRefusals, _))

theorem IsOtherOpening.append {t : Text} (h : t.IsOtherOpening) (rest : Text) :
    (t ++ rest).IsOtherOpening := by
  intro r hr
  obtain ⟨notStarting, notStarted⟩ := h r hr
  rw [bytes_append]
  constructor
  · intro starts
    rcases List.prefix_or_prefix_of_prefix starts (List.prefix_append _ _) with h | h
    · exact notStarting h
    · exact notStarted h
  · intro started
    exact notStarted ((List.prefix_append _ _).trans started)

end Text

theorem Builtin.mem_all (b : Builtin) : b ∈ all := by
  cases b with
  | math f =>
    cases f with
    | _ => decide
  | _ => decide

theorem Builtin.isOtherOpening_text (b : Builtin) : b.text.IsOtherOpening := by
  have every : ∀ b ∈ all, b.text.IsOtherOpening := by decide +kernel
  exact every b b.mem_all

theorem CallFault.isOtherOpening_message (f : CallFault) : f.message.IsOtherOpening := by
  cases f with
  | argumentCount b count =>
    simp only [message, Text.append_assoc]
    split
    · split
      · exact b.isOtherOpening_text.append _
      · exact b.isOtherOpening_text.append _
    · exact b.isOtherOpening_text.append _
  | numberNeeded b kind =>
    simp only [message, Text.append_assoc]
    exact b.isOtherOpening_text.append _
  | lengthNeeded kind =>
    refine Text.IsOtherOpening.append ?_ _
    decide +kernel

/-- The message of any other fault starts in another way. -/
theorem Fault.IsOfSource.isOtherOpening {f : Fault} (h : f.IsOfSource) :
    f.message.IsOtherOpening := by
  have openings : ∀ t ∈ (["execution interrupted", "step limit of ", "variable '",
      "invalid array size ", "undefined variable '", "'", "invalid index ", "index ",
      "output failed", "reading '", "cannot apply unary '", "division by zero", "cannot compare ",
      "cannot apply '", "undefined function '"] : List Text), t.IsOtherOpening := by
    decide +kernel
  cases f with
  | constantAssigned | unsupportedOperator => exact h.elim
  | interrupted | outputFailed | divisionByZero => exact openings _ (by simp [message])
  | call fault => exact fault.isOtherOpening_message
  | _ =>
    simp only [message, Text.append_assoc]
    exact (openings _ (by simp)).append _

namespace Run

/-- The position of the first label whose value is that of the subject. Labels after it are not
evaluated. -/
def matching (host : Host) (subject : Value) : List Expr → Run (Option Nat)
  | [] => pure none
  | label :: rest => do
    let v ← value host label
    if v.same subject then return some 0
    else
      let found ← matching host subject rest
      return found.map (· + 1)

end Run

/-- Where a label matches there is a block at its position, and that block is executed. -/
theorem execCases_of_matching {host : Host} {subject : Value} {cases : List (Expr × List Stmt)}
    {m m' : Machine} {i : Nat}
    (h : Run.matching host subject (cases.map (·.1)) m = (.ok (some i), m')) (turns : Nat)
    (otherwise : Run Unit) :
    ∃ body, (cases.map (·.2))[i]? = some body ∧
      execCases host turns subject cases otherwise m = execBlock host turns body m' := by
  induction cases generalizing m i with
  | nil => cases h
  | cons c rest ih =>
    obtain ⟨label, body⟩ := c
    rw [List.map_cons, Run.matching] at h
    obtain ⟨v, evaluated, hv, h⟩ := Action.bind_eq_ok.1 h
    rw [execCases, Action.bind_of_ok hv]
    split at h
    · next same =>
      cases h
      exact ⟨body, rfl, by rw [if_pos same]⟩
    · next differs =>
      obtain ⟨found, _, hfound, h⟩ := Action.bind_eq_ok.1 h
      cases found with
      | none => cases h
      | some j =>
        cases h
        obtain ⟨body', at_j, executed⟩ := ih hfound
        exact ⟨body', at_j, by rw [if_neg differs, executed]⟩

namespace Program

variable {src : Text} {p : Program}

theorem isFit_of_ofSource (compiled : ofSource src = .ok p) : ∀ s ∈ p.statements, s.IsFit := by
  intro s hs
  refine ⟨fun e he => ?_, constant?_assigned_of_ofSource compiled s hs⟩
  exact isOperable_of_ofSource compiled e (List.mem_flatMap.2 ⟨s, hs, he⟩)

theorem isOfSource_of_error? (compiled : ofSource src = .ok p) (turns : Nat) (host : Host)
    (channels : Channels) {e : RuntimeError}
    (failed : (p.runFor turns host channels).1.error? = some e) : e.IsOfSource := by
  have fit : (p.script turns).IsFit := closed_isFit.block turns p.body (isFit_of_ofSource compiled)
  obtain ⟨m, ran⟩ := exists_run_of_error? failed
  exact fit.failsOnly_run host ran

/-- A program that was compiled from a source has no part that the run would refuse as a tree, on
any host and with any input. Its runs do not refuse an operator, a statement, an expression or an
assignment to a constant; its only sign is the minus; and every label of a `Segun` has a block,
which is executed where the label is the first that matches.

A case is one pair of a label and a block, so the type of the cases already says that there are as
many labels as blocks, and the equation of the lengths says no more than the type. What is said of
the run is that the number of the label that it finds is that of a block, and that this block is the
one it executes. -/
theorem inSync_of_ofSource (compiled : ofSource src = .ok p) :
    (∀ (turns : Nat) (host : Host) (channels : Channels) (e : RuntimeError),
      (p.runFor turns host channels).1.error? = some e →
      ∀ r ∈ treeRefusals, ¬ r.bytes <+: e.fault.message.bytes) ∧
    (∀ (loc : Option Location) (op : UnaryOp) (operand : Expr),
      .unary loc op operand ∈ p.expressions → op = .negate) ∧
    (∀ (loc : Option Location) (subject : Expr) (cases : List (Expr × List Stmt))
      (otherwise : List Stmt), .select loc subject cases otherwise ∈ p.statements →
      (cases.map (·.1)).length = (cases.map (·.2)).length ∧
      ∀ (turns : Nat) (host : Host) (v : Value) (m m' : Machine) (i : Nat),
        Run.matching host v (cases.map (·.1)) m = (.ok (some i), m') →
        ∃ body, (cases.map (·.2))[i]? = some body ∧
          execCases host turns v cases (execBlock host turns otherwise) m =
            execBlock host turns body m') := by
  refine ⟨?_, ?_, ?_⟩
  · intro turns host channels e failed r hr
    have ofSource : e.fault.IsOfSource := isOfSource_of_error? compiled turns host channels failed
    exact (ofSource.isOtherOpening r hr).1
  · intro loc op operand mem
    exact isGrammatical_of_ofSource compiled _ mem
  · intro loc subject cases otherwise _
    refine ⟨by rw [List.length_map, List.length_map], ?_⟩
    intro turns host v m m' i matched
    exact execCases_of_matching matched turns _

/-- A sign, some operators, and a case whose block divides by zero. -/
def quotient : Text :=
  "algoritmo p
  n <- -1 + 2
  segun n hacer
    caso 0: escribir \"cero\"
    caso 1: escribir n / (n - 1)
  finsegun
finalgoritmo"

/-- The program fails, in another way. -/
theorem inSync_quotient :
    ∃ p e, ofSource quotient = .ok p ∧
      (p.runFor 1 {} (.initial {} (.lines []))).1.error? = some e ∧ e.fault = .divisionByZero ∧
      ∀ r ∈ treeRefusals, ¬ r.bytes <+: e.fault.message.bytes := by
  have checked : (ofSource quotient).toOption.any (fun p => decide
      ((p.runFor 1 {} (.initial {} (.lines []))).1.error?.map RuntimeError.fault =
        some .divisionByZero)) = true := by
    decide +kernel
  cases compiled : ofSource quotient with
  | error =>
    rw [compiled] at checked
    cases checked
  | ok p =>
    rw [compiled] at checked
    obtain ⟨e, failed, fault⟩ := Option.map_eq_some_iff.1 (of_decide_eq_true checked)
    obtain ⟨refuses, _, _⟩ := inSync_of_ofSource compiled
    exact ⟨p, e, rfl, failed, fault, refuses 1 {} _ e failed⟩

end Program

end Pseudocode
