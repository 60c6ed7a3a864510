import Pseudocode.Proofs.Llvm.Draft
import Pseudocode.Proofs.Number.Compare
import Pseudocode.Proofs.Program.Stale
import Pseudocode.Proofs.Run.Effects
import Pseudocode.Proofs.Run.Trace

/-!
# The code of expressions

The code of an expression leaves the slots and what was printed alone, defines only registers that
were not given out before, and leaves in its operand the number that stands for the value of the
expression. A truth value is stood for by one or zero.
-/

namespace Pseudocode

/-- The number that stands for a value in the code. -/
def Value.erased? : Value → Option Number
  | .number n => some n
  | .boolean b => some (Llvm.ofTruth b)
  | _ => none

namespace Value

variable {a b : Value} {x y : Number}

theorem erased?_eq_some (h : a.erased? = some x) :
    a = .number x ∨ ∃ truth, a = .boolean truth ∧ x = Llvm.ofTruth truth := by
  cases a with
  | number n => exact .inl (congrArg number (Option.some.inj h))
  | boolean truth => exact .inr ⟨truth, rfl, (Option.some.inj h).symm⟩
  | uninitialized | text | array | foreign => cases h

/-- The test for truth in the code is that of the language. -/
theorem holds_one_zero (h : a.erased? = some x) : Llvm.Predicate.one.holds x 0 = a.truthy := by
  have zero : Float.isNaN 0 = false := by decide
  obtain rfl | ⟨truth, rfl, rfl⟩ := erased?_eq_some h
  · simp only [Llvm.Predicate.holds, truthy, zero, Bool.not_false, Bool.and_true]
  · cases truth with
    | true | false => decide

/-- The test for equality in the code is that of the language where both values are of one kind. -/
theorem beq_eq_same (kinds : a.kind = b.kind) (ha : a.erased? = some x) (hb : b.erased? = some y) :
    (x == y) = a.same b := by
  obtain rfl | ⟨truth, rfl, rfl⟩ := erased?_eq_some ha
  · obtain rfl | ⟨truth', rfl, rfl⟩ := erased?_eq_some hb
    · rfl
    · cases kinds
  · obtain rfl | ⟨truth', rfl, rfl⟩ := erased?_eq_some hb
    · cases kinds
    · cases truth with
      | true | false =>
        cases truth' with
        | true | false => decide

end Value

/-- What the code of an operator computes from two doubles. Only known operators have code. -/
def BinaryOp.onDoubles (op : BinaryOp) (x y : Number) : Number :=
  match op with
  | add => x + y
  | sub => x - y
  | mul => x * y
  | div => x / y
  | gt => Llvm.ofTruth (Llvm.Predicate.ogt.holds x y)
  | lt => Llvm.ofTruth (Llvm.Predicate.olt.holds x y)
  | ge => Llvm.ofTruth (Llvm.Predicate.oge.holds x y)
  | le => Llvm.ofTruth (Llvm.Predicate.ole.holds x y)
  | eq => Llvm.ofTruth (Llvm.Predicate.oeq.holds x y)
  | ne => Llvm.ofTruth (Llvm.Predicate.une.holds x y)
  | and => Llvm.ofTruth (Llvm.Predicate.one.holds x 0 && Llvm.Predicate.one.holds y 0)
  | or => Llvm.ofTruth (Llvm.Predicate.one.holds x 0 || Llvm.Predicate.one.holds y 0)
  | other _ => x

/-- An operator computes the same from two values as its code from the numbers that stand for them,
where it has a result and does not compare two kinds. -/
theorem Eval.erased?_of_binary {arrays : Arrays} {op : BinaryOp} {lhs rhs w : Value} {x y : Number}
    (hl : lhs.erased? = some x) (hr : rhs.erased? = some y)
    (kinds : op.comparesKinds = true → lhs.kind = rhs.kind)
    (h : Eval.binary arrays op lhs rhs = .ok w) : w.erased? = some (op.onDoubles x y) := by
  cases op with
  | eq | ne =>
    cases h
    simp only [Value.erased?, BinaryOp.onDoubles, Llvm.Predicate.holds,
      Value.beq_eq_same (kinds rfl) hl hr]
  | and | or =>
    cases h
    simp only [Value.erased?, BinaryOp.onDoubles, Value.holds_one_zero hl, Value.holds_one_zero hr]
  | other => cases h
  -- All other operators have a result for two numbers only.
  | add | sub | mul | gt | lt | ge | le =>
    obtain rfl | ⟨_, rfl, rfl⟩ := Value.erased?_eq_some hl
    · obtain rfl | ⟨_, rfl, rfl⟩ := Value.erased?_eq_some hr
      · cases h
        rfl
      · cases h
    · obtain rfl | ⟨_, rfl, rfl⟩ := Value.erased?_eq_some hr
      · cases h
      · cases h
  | div =>
    obtain rfl | ⟨_, rfl, rfl⟩ := Value.erased?_eq_some hl
    · obtain rfl | ⟨_, rfl, rfl⟩ := Value.erased?_eq_some hr
      · simp only [Eval.binary] at h
        split at h
        · cases h
        · cases h
          rfl
      · cases h
    · obtain rfl | ⟨_, rfl, rfl⟩ := Value.erased?_eq_some hr
      · cases h
      · cases h

namespace Llvm

namespace Operand

/-- Every register in the operand was given out before the `n`-th. -/
def Below (n : Nat) : Operand → Prop
  | constant _ => True
  | register r => r < n

theorem Below.mono {v : Operand} {n n' : Nat} (below : v.Below n) (le : n ≤ n') : v.Below n' := by
  cases v with
  | constant => trivial
  | register r => exact Nat.lt_of_lt_of_le below le

end Operand

namespace Frame

/-- From one frame to another only registers from the `n`-th on have changed. -/
structure Agrees (n : Nat) (f f' : Frame) : Prop where
  slots : f'.slots = f.slots
  printed : f'.printed = f.printed
  registers : ∀ r < n, f'.registers r = f.registers r

namespace Agrees

variable {n n' : Nat} {f f' f'' : Frame}

theorem refl (n : Nat) (f : Frame) : Agrees n f f := ⟨rfl, rfl, fun _ _ => rfl⟩

theorem trans (first : Agrees n f f') (rest : Agrees n' f' f'') (h : n ≤ n') : Agrees n f f'' where
  slots := rest.slots.trans first.slots
  printed := rest.printed.trans first.printed
  registers r hr := (rest.registers r (Nat.lt_of_lt_of_le hr h)).trans (first.registers r hr)

theorem double? {v : Operand} (h : Agrees n f f') (below : v.Below n) :
    f'.double? v = f.double? v := by
  cases v with
  | constant => rfl
  | register r => simp only [Frame.double?, h.registers r below]

theorem truth? {r : Register} (h : Agrees n f f') (below : r < n) : f'.truth? r = f.truth? r := by
  simp only [Frame.truth?, h.registers r below]

end Agrees

theorem agrees_define (f : Frame) (r : Register) (x : Datum) : Agrees r f (f.define r x) := by
  refine ⟨rfl, rfl, fun r' hr => ?_⟩
  simp [define, Nat.ne_of_lt hr]

@[simp] theorem double?_define (f : Frame) (r : Register) (x : Number) :
    (f.define r (.double x)).double? (.register r) = some x := by
  simp [double?, define]

@[simp] theorem truth?_define (f : Frame) (r : Register) (b : Bool) :
    (f.define r (.truth b)).truth? r = some b := by
  simp [truth?, define]

end Frame

theorem execCode_define {op : Operation} {f : Frame} {x : Datum} (h : op.perform f = some (x, []))
    (r : Register) : execCode [.define r op] f = some (f.define r x) := by
  simp [execCode, Instr.exec, h, Frame.define]

/-- Code leaves a number in an operand and changes only registers from the `n`-th on. -/
def Computes (n : Nat) (code : List Instr) (v : Operand) (f : Frame) (x : Number) : Prop :=
  ∃ f', execCode code f = some f' ∧ f.Agrees n f' ∧ f'.double? v = some x

/-- Code leaves a truth value in a register and changes only registers from the `n`-th on. -/
def Decides (n : Nat) (code : List Instr) (r : Register) (f : Frame) (b : Bool) : Prop :=
  ∃ f', execCode code f = some f' ∧ f.Agrees n f' ∧ f'.truth? r = some b

section Code

variable {n r r' : Nat} {code : List Instr} {f : Frame} {x y : Number} {a b : Bool} {v w : Operand}

theorem computes_define {op : Operation} (h : op.perform f = some (.double x, [])) :
    Computes r [.define r op] (.register r) f x :=
  ⟨_, execCode_define h r, f.agrees_define _ _, f.double?_define _ _⟩

theorem decides_define {op : Operation} (h : op.perform f = some (.truth b, [])) :
    Decides r [.define r op] r f b :=
  ⟨_, execCode_define h r, f.agrees_define _ _, f.truth?_define _ _⟩

/-- Code goes on after code that computed an operand, which it can still use. -/
theorem Computes.trans {P : Frame → Prop} {rest : List Instr} (first : Computes n code v f x)
    (le : n ≤ r)
    (next : ∀ f', f.Agrees n f' → f'.double? v = some x →
      ∃ f'', execCode rest f' = some f'' ∧ f'.Agrees r f'' ∧ P f'') :
    ∃ f'', execCode (code ++ rest) f = some f'' ∧ f.Agrees n f'' ∧ P f'' := by
  obtain ⟨f', ran, agrees, value⟩ := first
  obtain ⟨f'', ran', agrees', holds⟩ := next f' agrees value
  exact ⟨f'', execCode_append ran ran', agrees.trans agrees' le, holds⟩

theorem Decides.trans {P : Frame → Prop} {rest : List Instr} (first : Decides n code r f b)
    (le : n ≤ r')
    (next : ∀ f', f.Agrees n f' → f'.truth? r = some b →
      ∃ f'', execCode rest f' = some f'' ∧ f'.Agrees r' f'' ∧ P f'') :
    ∃ f'', execCode (code ++ rest) f = some f'' ∧ f.Agrees n f'' ∧ P f'' := by
  obtain ⟨f', ran, agrees, value⟩ := first
  obtain ⟨f'', ran', agrees', holds⟩ := next f' agrees value
  exact ⟨f'', execCode_append ran ran', agrees.trans agrees' le, holds⟩

end Code

namespace Lowering

variable {d d' : Draft} {v a b : Operand}

theorem emits_arithmetic {op : Arithmetic} (h : arithmetic op a b d = (.ok v, d')) :
    ∃ code, d.Emits code d' ∧ v.Below d'.registers ∧
      ∀ f x y, f.double? a = some x → f.double? b = some y →
        Computes d.registers code v f (op.apply x y) := by
  obtain ⟨r, m, hdef, hret⟩ := Action.bind_eq_ok.1 h
  cases hret
  obtain ⟨rfl, emits, next⟩ := emits_define hdef
  refine ⟨_, emits, by simp [Operand.Below, next], fun f x y ha hb => ?_⟩
  exact computes_define (by simp [Operation.perform, ha, hb])

theorem emits_callRoutine {routine : Routine} (h : callRoutine routine a d = (.ok v, d')) :
    ∃ code, d.Emits code d' ∧ v.Below d'.registers ∧
      ∀ f x, f.double? a = some x → Computes d.registers code v f (routine.apply x) := by
  obtain ⟨_, m, hdeclare, h⟩ := Action.bind_eq_ok.1 h
  cases hdeclare
  obtain ⟨r, m, hdef, hret⟩ := Action.bind_eq_ok.1 h
  cases hret
  obtain ⟨rfl, emits, next⟩ := emits_define hdef
  refine ⟨_, { emits with }, by simp [Operand.Below, next], fun f x ha => ?_⟩
  exact computes_define (by simp [Operation.perform, ha])

theorem emits_compare {p : Predicate} {r : Register} (h : define (.compare p a b) d = (.ok r, d')) :
    ∃ code, d.Emits code d' ∧ r < d'.registers ∧ d.registers ≤ r ∧
      ∀ f x y, f.double? a = some x → f.double? b = some y →
        Decides d.registers code r f (p.holds x y) := by
  obtain ⟨rfl, emits, next⟩ := emits_define h
  refine ⟨_, emits, next ▸ Nat.lt_succ_self _, Nat.le_refl _, fun f x y ha hb => ?_⟩
  exact decides_define (by simp [Operation.perform, ha, hb])

theorem emits_comparison {p : Predicate} (h : comparison p a b d = (.ok v, d')) :
    ∃ code, d.Emits code d' ∧ v.Below d'.registers ∧
      ∀ f x y, f.double? a = some x → f.double? b = some y →
        Computes d.registers code v f (ofTruth (p.holds x y)) := by
  obtain ⟨r, m, hcompare, h⟩ := Action.bind_eq_ok.1 h
  obtain ⟨r', m', hdouble, hret⟩ := Action.bind_eq_ok.1 h
  cases hret
  obtain ⟨code, emits, _, _, decides⟩ := emits_compare hcompare
  obtain ⟨rfl, emits', next⟩ := emits_define hdouble
  refine ⟨_, emits.trans emits', by simp [Operand.Below, next], fun f x y ha hb => ?_⟩
  refine (decides f x y ha hb).trans emits.registers fun f' _ truth => ?_
  exact computes_define (by simp [Operation.perform, truth])

theorem emits_connective {op : Connective} (below : b.Below d.registers)
    (h : connective op a b d = (.ok v, d')) :
    ∃ code, d.Emits code d' ∧ v.Below d'.registers ∧
      ∀ f x y, f.double? a = some x → f.double? b = some y →
        Computes d.registers code v f
          (ofTruth (op.apply (Predicate.one.holds x 0) (Predicate.one.holds y 0))) := by
  obtain ⟨r₁, m₁, hfirst, h⟩ := Action.bind_eq_ok.1 h
  obtain ⟨r₂, m₂, hsecond, h⟩ := Action.bind_eq_ok.1 h
  obtain ⟨r₃, m₃, hconnect, h⟩ := Action.bind_eq_ok.1 h
  obtain ⟨r₄, m₄, hdouble, hret⟩ := Action.bind_eq_ok.1 h
  cases hret
  obtain ⟨code₁, emits₁, below₁, _, first⟩ := emits_compare hfirst
  obtain ⟨code₂, emits₂, _, _, second⟩ := emits_compare hsecond
  obtain ⟨rfl, emits₃, next₃⟩ := emits_define hconnect
  obtain ⟨rfl, emits₄, next₄⟩ := emits_define hdouble
  refine ⟨_, emits₁.trans (emits₂.trans (emits₃.trans emits₄)), by simp [Operand.Below, next₄],
    fun f x y ha hb => ?_⟩
  -- The truth of the first operand survives the code for the second, and both are then connected.
  refine (first f x 0 ha rfl).trans emits₁.registers fun f₁ agrees₁ truth₁ => ?_
  refine (second f₁ y 0 ((agrees₁.double? below).trans hb) rfl).trans emits₂.registers
    fun f₂ agrees₂ truth₂ => ?_
  have kept : f₂.truth? r₁ = some _ := (agrees₂.truth? below₁).trans truth₁
  have connected : Decides m₂.registers [.define m₂.registers (.connect op r₁ r₂)] m₂.registers f₂
      (op.apply (Predicate.one.holds x 0) (Predicate.one.holds y 0)) :=
    decides_define (by simp [Operation.perform, kept, truth₂])
  refine connected.trans emits₃.registers fun f₃ _ truth₃ => ?_
  exact computes_define (by simp [Operation.perform, truth₃])

theorem emits_binary {loc : Option Location} {op : BinaryOp} (below : b.Below d.registers)
    (h : binary loc op a b d = (.ok v, d')) :
    ∃ code, d.Emits code d' ∧ v.Below d'.registers ∧
      ∀ f x y, f.double? a = some x → f.double? b = some y →
        Computes d.registers code v f (op.onDoubles x y) := by
  cases op with
  | add | sub | mul | div => exact emits_arithmetic h
  | gt | lt | ge | le | eq | ne => exact emits_comparison h
  | and | or => exact emits_connective below h
  | other => cases h

theorem emits_apply {fn : MathFunction} (h : apply fn a d = (.ok v, d')) :
    ∃ code, d.Emits code d' ∧ v.Below d'.registers ∧
      ∀ f x, f.double? a = some x → Computes d.registers code v f (fn.apply x) := by
  cases fn with
  | round =>
    obtain ⟨half, m, hadd, hcall⟩ := Action.bind_eq_ok.1 h
    obtain ⟨code, emits, _, computes⟩ := emits_arithmetic hadd
    obtain ⟨code', emits', below, computes'⟩ := emits_callRoutine hcall
    refine ⟨_, emits.trans emits', below, fun f x ha => ?_⟩
    exact (computes f x 0.5 ha rfl).trans emits.registers fun f' _ value => computes' f' _ value
  | _ => exact emits_callRoutine h

end Lowering

theorem Operation.perform_load {f : Frame} {x : Text} {y : Number} (h : f.slots x = some (some y)) :
    (Operation.load x).perform f = some (.double y, []) := by
  simp [perform, h]

/-- Every variable of a store that is not stale has a slot with the number that stands for its
value. -/
def Frame.Holds (f : Frame) (store : Store) (stale : List Text) : Prop :=
  ∀ name v, name ∉ stale → store.bindings.find? name = some v →
    ∃ x, v.erased? = some x ∧ f.slots name = some (some x)

theorem Frame.Holds.of_slots {f f' : Frame} {store : Store} {stale : List Text}
    (holds : f.Holds store stale) (slots : f'.slots = f.slots) : f'.Holds store stale := by
  intro name v current bound
  rw [slots]
  exact holds name v current bound

end Llvm

/-- Of each two values that were compared both are of one kind. -/
def SameKinds (compared : List (Value × Value)) : Prop := ∀ p ∈ compared, p.1.kind = p.2.kind

instance (compared : List (Value × Value)) : Decidable (SameKinds compared) :=
  List.decidableBAll (fun p : Value × Value => p.1.kind = p.2.kind) compared

theorem SameKinds.append {first rest : List (Value × Value)} :
    SameKinds (first ++ rest) ↔ SameKinds first ∧ SameKinds rest :=
  List.forall_mem_append

/-- What is observed in a composite of which the first part succeeds. -/
theorem Action.observe_of_ok {σ ε α ω : Type} {x : Action σ ε α} {s s' : σ} {a : α}
    (h : x s = (.ok a, s')) (during : σ → List ω) (after : α → σ → List ω) :
    observe x during after s = during s ++ after a s' := by
  rw [observe, h]

namespace Expr

/-- A sign in front of an operand. -/
def IsUnary : Expr → Prop
  | .unary _ _ _ => True
  | _ => False

instance : DecidablePred IsUnary
  | .unary _ _ _ => isTrue trivial
  | .text _ _ | .number _ _ | .boolean _ _ | .name _ _ | .binary _ _ _ _ | .element _ _ _
  | .call _ _ _ => isFalse id

/-- All of an expression is as the grammar has it, and nothing in it has a sign. -/
def IsPlain (e : Expr) : Prop := ∀ a ∈ e.parts, a.IsGrammatical ∧ ¬ a.IsUnary

namespace IsPlain

theorem self {e : Expr} (h : e.IsPlain) : e.IsGrammatical ∧ ¬ e.IsUnary := by
  refine h e ?_
  rw [parts.eq_def]
  exact List.mem_cons_self

theorem operands {loc : Option Location} {op : BinaryOp} {a b : Expr}
    (h : (binary loc op a b).IsPlain) : a.IsPlain ∧ b.IsPlain := by
  rw [IsPlain, parts, List.forall_mem_cons] at h
  exact List.forall_mem_append.1 h.2

theorem argument {loc : Option Location} {function : Text} {arg : Expr}
    (h : (call loc function [arg]).IsPlain) : arg.IsPlain := by
  rw [IsPlain, parts, partsOfAll, partsOfAll, List.append_nil, List.forall_mem_cons] at h
  exact h.2

end IsPlain

open Llvm

theorem math_ofName? {name : Text} {fn : MathFunction} (h : MathFunction.ofName? name = some fn) :
    Builtin.ofName? name = some (.math fn) := by
  have found : (MathFunction.all.map Builtin.math).find? (fun b => b.text == name.lower) =
      some (.math fn) := by
    rw [List.find?_map]
    exact congrArg (Option.map Builtin.math) h
  rw [Builtin.ofName?, Builtin.all, List.find?_append, found]
  rfl

/-- A name with a value that is not that of a constant is bound to it. -/
theorem eval_name {x : Text} (notConstant : constant? x = none) {loc : Option Location}
    {draws : Nat → Number} {store : Store} {n n' : Nat} {w : Value}
    (ran : (name loc x).eval draws store n = (.ok w, n')) : store.bindings.find? x = some w := by
  have get : store.get? x = store.bindings.find? x := by simp only [Store.get?, notConstant]
  rw [eval, get] at ran
  cases found : store.bindings.find? x with
  | none =>
    rw [found] at ran
    cases ran
  | some u =>
    rw [found] at ran
    cases ran
    rfl

/-- A call of a function from numbers to numbers that has a value was given a number. -/
theorem eval_math {function : Text} {fn : MathFunction}
    (h : MathFunction.ofName? function = some fn) {loc : Option Location} {arg : Expr}
    {draws : Nat → Number} {store : Store} {n n' : Nat} {w : Value}
    (ran : (call loc function [arg]).eval draws store n = (.ok w, n')) :
    ∃ x n₁, arg.eval draws store n = (.ok (.number x), n₁) ∧ w = .number (fn.apply x) := by
  rw [eval, math_ofName? h] at ran
  obtain ⟨vs, n₁, hargs, hcall⟩ := Action.bind_eq_ok.1 ran
  rw [evalAll] at hargs
  obtain ⟨v, n₂, harg, hrest⟩ := Action.bind_eq_ok.1 hargs
  rw [evalAll] at hrest
  cases hrest
  cases v with
  | number x =>
    cases hcall
    exact ⟨x, n₁, harg, rfl⟩
  | uninitialized | text | boolean | array | foreign => cases hcall

/-- Some code computes the number for the value of an expression, wherever the expression has one
and the slots hold what the variables in it have. -/
def IsComputedBy (e : Expr) (d : Draft) (code : List Instr) (v : Operand) : Prop :=
  ∀ ⦃draws store stale n w n' f⦄, e.IsPlain → e.Avoids stale →
    e.eval draws store n = (.ok w, n') → SameKinds (e.comparisons draws store n) →
    f.Holds store stale → ∃ x, w.erased? = some x ∧ Computes d.registers code v f x

namespace IsComputedBy

variable {d d₁ d₂ : Draft} {v u : Operand} {code code₁ code₂ code₃ : List Instr}
  {loc : Option Location}

/-- The result of an operator is that of the instruction for it. -/
theorem binary {op : BinaryOp} {a b : Expr} {va vb : Operand} (first : a.IsComputedBy d code₁ va)
    (emits₁ : d.Emits code₁ d₁) (below₁ : va.Below d₁.registers)
    (second : b.IsComputedBy d₁ code₂ vb) (emits₂ : d₁.Emits code₂ d₂)
    (third : ∀ f x y, f.double? va = some x → f.double? vb = some y →
      Computes d₂.registers code₃ v f (op.onDoubles x y)) :
    (Expr.binary loc op a b).IsComputedBy d (code₁ ++ (code₂ ++ code₃)) v := by
  intro draws store stale n w n' f plain avoids ran kinds holds
  rw [eval] at ran
  obtain ⟨lhs, n₁, ran₁, ran⟩ := Action.bind_eq_ok.1 ran
  obtain ⟨rhs, n₂, ran₂, ran⟩ := Action.bind_eq_ok.1 ran
  obtain ⟨result, rfl⟩ := Eval.located_eq_ok ran
  rw [comparisons, Action.observe_of_ok ran₁, Action.observe_of_ok ran₂] at kinds
  obtain ⟨kinds₁, kinds⟩ := SameKinds.append.1 kinds
  obtain ⟨kinds₂, kinds₃⟩ := SameKinds.append.1 kinds
  obtain ⟨x, hx, f₁, code₁Ran, agrees₁, value₁⟩ :=
    first plain.operands.1 avoids.operands.1 ran₁ kinds₁ holds
  obtain ⟨y, hy, f₂, code₂Ran, agrees₂, value₂⟩ :=
    second plain.operands.2 avoids.operands.2 ran₂ kinds₂ (holds.of_slots agrees₁.slots)
  obtain ⟨f₃, code₃Ran, agrees₃, value₃⟩ :=
    third f₂ x y ((agrees₂.double? below₁).trans value₁) value₂
  refine ⟨op.onDoubles x y, ?_, f₃, ?_, ?_, value₃⟩
  · refine Eval.erased?_of_binary hx hy (fun compares => ?_) result
    rw [if_pos compares] at kinds₃
    exact kinds₃ (lhs, rhs) (List.mem_singleton_self _)
  · exact execCode_append code₁Ran (execCode_append code₂Ran code₃Ran)
  · exact agrees₁.trans (agrees₂.trans agrees₃ emits₂.registers) emits₁.registers

/-- The result of a function is that of the routine for it. -/
theorem call {function : Text} {fn : MathFunction} (h : MathFunction.ofName? function = some fn)
    {arg : Expr} (first : arg.IsComputedBy d code₁ u) (emits₁ : d.Emits code₁ d₁)
    (second : ∀ f x, f.double? u = some x → Computes d₁.registers code₂ v f (fn.apply x)) :
    (Expr.call loc function [arg]).IsComputedBy d (code₁ ++ code₂) v := by
  intro draws store stale n w n' f plain avoids ran kinds holds
  obtain ⟨x, n₁, ran₁, rfl⟩ := eval_math h ran
  rw [comparisons, math_ofName? h] at kinds
  simp only [comparisonsOfAll, Action.observe_of_ok ran₁] at kinds
  obtain ⟨y, hy, computes⟩ :=
    first plain.argument avoids.argument ran₁ (SameKinds.append.1 kinds).1 holds
  cases hy
  refine ⟨fn.apply x, rfl, ?_⟩
  exact computes.trans emits₁.registers fun f' _ value => second f' x value

end IsComputedBy

/-- Lowering an expression adds code that computes the number for its value. -/
theorem emits_lower {e : Expr} {d d' : Draft} {v : Operand} (h : e.lower d = (.ok v, d')) :
    ∃ code, d.Emits code d' ∧ v.Below d'.registers ∧ e.IsComputedBy d code v := by
  match e with
  | .number _ n =>
    rw [lower] at h
    cases h
    refine ⟨[], .refl d, trivial, fun _ _ _ _ _ _ f _ _ ran _ _ => ?_⟩
    rw [eval] at ran
    cases ran
    exact ⟨n, rfl, f, rfl, .refl _ f, rfl⟩
  | .boolean _ b =>
    rw [lower] at h
    cases h
    refine ⟨[], .refl d, trivial, fun _ _ _ _ _ _ f _ _ ran _ _ => ?_⟩
    rw [eval] at ran
    cases ran
    exact ⟨ofTruth b, rfl, f, rfl, .refl _ f, rfl⟩
  | .name loc x =>
    rw [lower] at h
    obtain ⟨_, _, hstate, h⟩ := Action.bind_eq_ok.1 h
    cases hstate
    split at h
    · obtain ⟨r, m, hload, hret⟩ := Action.bind_eq_ok.1 h
      cases hret
      obtain ⟨rfl, emits, next⟩ := Lowering.emits_define hload
      refine ⟨_, emits, next ▸ Nat.lt_succ_self _,
        fun _ _ _ _ _ _ _ plain avoids ran _ holds => ?_⟩
      obtain ⟨y, hy, slot⟩ := holds x _ avoids.name (eval_name plain.self.1 ran)
      exact ⟨y, hy, computes_define (Operation.perform_load slot)⟩
    · cases h
  | .unary loc op operand =>
    rw [lower] at h
    obtain ⟨u, m, hoperand, h⟩ := Action.bind_eq_ok.1 h
    obtain ⟨code, emits, _, _⟩ := emits_lower hoperand
    obtain ⟨code', emits', below, _⟩ := Lowering.emits_arithmetic h
    refine ⟨_, emits.trans emits', below, fun _ _ _ _ _ _ _ plain _ _ _ _ => ?_⟩
    exact absurd trivial plain.self.2
  | .binary loc op a b =>
    rw [lower] at h
    obtain ⟨va, d₁, hfirst, h⟩ := Action.bind_eq_ok.1 h
    obtain ⟨vb, d₂, hsecond, h⟩ := Action.bind_eq_ok.1 h
    obtain ⟨code₁, emits₁, below₁, first⟩ := emits_lower hfirst
    obtain ⟨code₂, emits₂, below₂, second⟩ := emits_lower hsecond
    obtain ⟨code₃, emits₃, below₃, third⟩ := Lowering.emits_binary below₂ h
    exact ⟨_, emits₁.trans (emits₂.trans emits₃), below₃,
      .binary first emits₁ below₁ second emits₂ third⟩
  | .call loc function args =>
    rw [lower.eq_def] at h
    cases hfn : MathFunction.ofName? function with
    | none =>
      simp only [hfn] at h
      cases h
    | some fn =>
      simp only [hfn] at h
      match args with
      | [arg] =>
        obtain ⟨u, m, harg, h⟩ := Action.bind_eq_ok.1 h
        obtain ⟨code₁, emits₁, _, first⟩ := emits_lower harg
        obtain ⟨code₂, emits₂, below₂, second⟩ := Lowering.emits_apply h
        exact ⟨_, emits₁.trans emits₂, below₂, .call hfn first emits₁ second⟩
      | [] => cases h
      | _ :: _ :: _ => cases h
  | .text _ _ =>
    rw [lower] at h
    cases h
  | .element _ _ _ =>
    rw [lower] at h
    cases h

end Expr

end Pseudocode
