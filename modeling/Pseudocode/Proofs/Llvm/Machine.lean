import Mathlib.Data.List.Forall2
import Pseudocode.Llvm.Module

/-!
# Executing LLVM code

What the instructions of a module do, one at a time. Arithmetic, comparisons and library routines
are those of the numbers of the language. A register that is not defined, a slot that is not
allocated and a slot that holds nothing yet have no value, and an instruction that needs one is
stuck; so code that comes to its `ret` has used nothing undefined.
-/

namespace Pseudocode.Llvm

/-- What a register holds. A call of the printing routine gives a status that nothing uses. -/
inductive Datum where
  | double (x : Number)
  | truth (b : Bool)
  | status
  deriving Repr

/-- What a call of the printing routine was given. -/
inductive Output where
  | number (x : Number)
  | string (t : Text)
  | newline
  deriving DecidableEq, Repr

/-- The state of the function: its registers, its slots with what they hold, and the calls of the
printing routine so far. -/
structure Frame where
  registers : Register → Option Datum := fun _ => none
  slots : Text → Option (Option Number) := fun _ => none
  printed : List Output := []

namespace Arithmetic

/-- The result of an operation on two doubles. -/
def apply : Arithmetic → Number → Number → Number
  | fadd, x, y => x + y
  | fsub, x, y => x - y
  | fmul, x, y => x * y
  | fdiv, x, y => x / y

end Arithmetic

namespace Predicate

/-- Whether a comparison holds. -/
def holds : Predicate → Number → Number → Bool
  | ogt, x, y => decide (y < x)
  | olt, x, y => decide (x < y)
  | oge, x, y => decide (y ≤ x)
  | ole, x, y => decide (x ≤ y)
  | oeq, x, y => x == y
  | une, x, y => !(x == y)
  | one, x, y => !(x == y) && !x.isNaN && !y.isNaN

end Predicate

namespace Connective

/-- The result of a connective. -/
def apply : Connective → Bool → Bool → Bool
  | and, a, b => a && b
  | or, a, b => a || b

end Connective

namespace Routine

/-- What a routine computes. -/
def apply : Routine → Number → Number
  | sqrt, x => Float.sqrt x
  | sin, x => Float.sin x
  | cos, x => Float.cos x
  | tan, x => Float.tan x
  | fabs, x => x.abs
  | log10, x => x.log10
  | log, x => Float.log x
  | exp, x => Float.exp x
  | trunc, x => x.trunc
  | floor, x => x.floor
  | ceil, x => x.ceil

end Routine

/-- One or zero. -/
def ofTruth (b : Bool) : Number := if b then 1 else 0

namespace Frame

/-- The value of an operand. -/
def double? (f : Frame) : Operand → Option Number
  | .constant x => some x
  | .register r =>
    match f.registers r with
    | some (.double x) => some x
    | _ => none

/-- The truth value in a register. -/
def truth? (f : Frame) (r : Register) : Option Bool :=
  match f.registers r with
  | some (.truth b) => some b
  | _ => none

/-- Put something into a register. -/
def define (f : Frame) (r : Register) (d : Datum) : Frame :=
  { f with registers := fun r' => if r' = r then some d else f.registers r' }

/-- Give a slot new contents. -/
def setSlot (f : Frame) (slot : Text) (contents : Option Number) : Frame :=
  { f with slots := fun x => if x = slot then some contents else f.slots x }

end Frame

/-- What a call of the printing routine is given. -/
def Printed.output? (f : Frame) : Printed → Option Output
  | .number v => (f.double? v).map .number
  | .string t => some (.string t)
  | .newline => some .newline

/-- The result of an operation, and what it prints. -/
def Operation.perform (f : Frame) : Operation → Option (Datum × List Output)
  | .load slot => do
    let x ← (← f.slots slot)
    return (.double x, [])
  | .arithmetic op a b => do return (.double (op.apply (← f.double? a) (← f.double? b)), [])
  | .compare p a b => do return (.truth (p.holds (← f.double? a) (← f.double? b)), [])
  | .connect op a b => do return (.truth (op.apply (← f.truth? a) (← f.truth? b)), [])
  | .toDouble r => do return (.double (ofTruth (← f.truth? r)), [])
  | .call routine arg => do return (.double (routine.apply (← f.double? arg)), [])
  | .print what => do return (.status, [← what.output? f])

/-- Carry out an instruction. -/
def Instr.exec (f : Frame) : Instr → Option Frame
  | .allocate slot => some (f.setSlot slot none)
  | .store v slot => do
    let x ← f.double? v
    let _ ← f.slots slot
    return f.setSlot slot (some x)
  | .define r op => do
    let (d, outputs) ← op.perform f
    return { f.define r d with printed := f.printed ++ outputs }

/-- Carry out instructions in order. -/
def execCode (code : List Instr) (f : Frame) : Option Frame := code.foldlM (fun f i => i.exec f) f

theorem execCode_append {first rest : List Instr} {f f' f'' : Frame}
    (hfirst : execCode first f = some f') (hrest : execCode rest f' = some f'') :
    execCode (first ++ rest) f = some f'' := by
  rw [execCode, List.foldlM_append]
  exact Option.bind_eq_some_iff.2 ⟨f', hfirst, hrest⟩

/-- Where execution is: before some instructions of a block and its terminator, or at its end. -/
inductive Control where
  | running (code : List Instr) (terminator : Terminator)
  | returned
  deriving Repr

/-- The beginning of a block. -/
def Block.begin (b : Block) : Control := .running b.code b.terminator

/-- A moment of an execution. -/
structure Config where
  control : Control
  frame : Frame

namespace Module

/-- Execute one instruction or terminator. -/
def step (m : Module) : Config → Option Config
  | ⟨.running (i :: rest) t, f⟩ => do return ⟨.running rest t, ← i.exec f⟩
  | ⟨.running [] (.jump target), f⟩ => do return ⟨(← m.block? target).begin, f⟩
  | ⟨.running [] (.branch cond yes no), f⟩ => do
    let target := if ← f.truth? cond then yes else no
    return ⟨(← m.block? target).begin, f⟩
  | ⟨.running [] .ret, f⟩ => some ⟨.returned, f⟩
  | ⟨.returned, _⟩ => none

/-- The first moment: the first block of the function is its entry, and nothing is defined. -/
def start? (m : Module) : Option Config := m.blocks.head?.map fun b => ⟨b.begin, {}⟩

/-- Execution comes from one moment to another. -/
inductive Reaches (m : Module) : Config → Config → Prop where
  | refl (c : Config) : Reaches m c c
  | step {c c' c'' : Config} : m.step c = some c' → Reaches m c' c'' → Reaches m c c''

theorem Reaches.trans {m : Module} {c c' c'' : Config} (first : Reaches m c c')
    (rest : Reaches m c' c'') : Reaches m c c'' := by
  induction first with
  | refl => exact rest
  | step h _ ih => exact .step h (ih rest)

theorem Reaches.single {m : Module} {c c' : Config} (h : m.step c = some c') : Reaches m c c' :=
  .step h (.refl c')

end Module

/-- The block that is entered next, with the frame that it is entered in. -/
def Config.entry? : Config → Option (Label × Frame)
  | ⟨.running [] (.jump target), f⟩ => some (target, f)
  | ⟨.running [] (.branch cond yes no), f⟩ =>
    (f.truth? cond).map fun truth => (if truth then yes else no, f)
  | _ => none

namespace Module

/-- Execution comes from one moment to another, and enters some blocks on the way. -/
inductive Passes (m : Module) : Config → List (Label × Frame) → Config → Prop where
  | refl (c : Config) : Passes m c [] c
  | step {c c' c'' : Config} {entered : List (Label × Frame)} : m.step c = some c' →
      Passes m c' entered c'' → Passes m c (c.entry?.toList ++ entered) c''

namespace Passes

variable {m : Module} {c c' c'' : Config} {entered entered' : List (Label × Frame)}

theorem trans (first : Passes m c entered c') (rest : Passes m c' entered' c'') :
    Passes m c (entered ++ entered') c'' := by
  induction first with
  | refl => exact rest
  | step h _ ih =>
    rw [List.append_assoc]
    exact .step h (ih rest)

theorem single (h : m.step c = some c') : Passes m c c.entry?.toList c' := by
  simpa using Passes.step h (.refl c')

theorem reaches (h : Passes m c entered c') : Reaches m c c' := by
  induction h with
  | refl c => exact .refl c
  | step h _ ih => exact .step h ih

/-- Instructions are executed where they stand in a block. -/
theorem of_execCode {code : List Instr} {f f' : Frame} (h : execCode code f = some f')
    (rest : List Instr) (t : Terminator) :
    Passes m ⟨.running (code ++ rest) t, f⟩ [] ⟨.running rest t, f'⟩ := by
  induction code generalizing f with
  | nil =>
    cases h
    exact .refl _
  | cons i code ih =>
    obtain ⟨middle, first, later⟩ := Option.bind_eq_some_iff.1 h
    have next : m.step ⟨.running (i :: (code ++ rest)) t, f⟩ =
        some ⟨.running (code ++ rest) t, middle⟩ :=
      Option.bind_eq_some_iff.2 ⟨middle, first, rfl⟩
    exact .step next (ih later)

/-- No step leads on from the end, and any other moment has one next moment, so there is one way to
the end. -/
theorem returned_unique {f f' : Frame} (h : Passes m c entered ⟨.returned, f⟩)
    (h' : Passes m c entered' ⟨.returned, f'⟩) : entered' = entered ∧ f' = f := by
  generalize hend : (⟨.returned, f⟩ : Config) = stop at h
  induction h generalizing entered' with
  | refl =>
    subst hend
    cases h' with
    | refl => exact ⟨rfl, rfl⟩
    | step next => cases next
  | step next _ ih =>
    cases h' with
    | refl => cases next
    | step next' rest' =>
      cases Option.some.inj (next.symm.trans next')
      obtain ⟨rfl, rfl⟩ := ih rest' hend
      exact ⟨rfl, rfl⟩

end Passes

theorem Reaches.exists_passes {m : Module} {c c' : Config} (h : Reaches m c c') :
    ∃ entered, Passes m c entered c' := by
  induction h with
  | refl c => exact ⟨[], .refl c⟩
  | step h _ ih =>
    obtain ⟨entered, passes⟩ := ih
    exact ⟨_, .step h passes⟩

/-- Execution from the first moment comes to its end in a frame. -/
def Returns (m : Module) (f : Frame) : Prop := ∃ c, m.start? = some c ∧ m.Reaches c ⟨.returned, f⟩

/-- The frame in which execution comes to its end within a number of steps, if it does. -/
def execute (m : Module) : (steps : Nat) → Config → Option Frame
  | _, ⟨.returned, f⟩ => some f
  | 0, ⟨.running _ _, _⟩ => none
  | steps + 1, c => (m.step c).bind (m.execute steps)

theorem reaches_of_execute {m : Module} {steps : Nat} {c : Config} {f : Frame}
    (h : m.execute steps c = some f) : m.Reaches c ⟨.returned, f⟩ := by
  induction steps generalizing c with
  | zero =>
    obtain ⟨_ | _, _⟩ := c
    · cases h
    · cases h
      exact .refl _
  | succ steps ih =>
    obtain ⟨_ | _, _⟩ := c
    · obtain ⟨c', next, rest⟩ := Option.bind_eq_some_iff.1 h
      exact .step next (ih rest)
    · cases h
      exact .refl _

theorem Returns.unique {m : Module} {f f' : Frame} (h : m.Returns f) (h' : m.Returns f') :
    f' = f := by
  obtain ⟨c, start, reaches⟩ := h
  obtain ⟨c', start', reaches'⟩ := h'
  cases Option.some.inj (start.symm.trans start')
  obtain ⟨_, passes⟩ := reaches.exists_passes
  obtain ⟨_, passes'⟩ := reaches'.exists_passes
  exact (passes.returned_unique passes').2

/-- Execution from the first moment enters some blocks and comes to its end in a frame. -/
def ReturnsAfter (m : Module) (entered : List (Label × Frame)) (f : Frame) : Prop :=
  ∃ c, m.start? = some c ∧ m.Passes c entered ⟨.returned, f⟩

theorem ReturnsAfter.unique {m : Module} {entered entered' : List (Label × Frame)} {f f' : Frame}
    (h : m.ReturnsAfter entered f) (h' : m.ReturnsAfter entered' f') :
    entered' = entered ∧ f' = f := by
  obtain ⟨c, start, passes⟩ := h
  obtain ⟨c', start', passes'⟩ := h'
  cases Option.some.inj (start.symm.trans start')
  exact passes.returned_unique passes'

section Blocks

variable {m m' : Module} (found : ∀ l b, m.block? l = some b → m'.block? l = some b)
include found

/-- Execution finds blocks by their labels, so their order does not matter to it. -/
theorem step_of_blocks {c c' : Config} (h : m.step c = some c') : m'.step c = some c' := by
  rw [step.eq_def] at h ⊢
  split at h
  · exact h
  · obtain ⟨b, there, rest⟩ := Option.bind_eq_some_iff.1 h
    exact Option.bind_eq_some_iff.2 ⟨b, found _ b there, rest⟩
  · obtain ⟨truth, decided, enter⟩ := Option.bind_eq_some_iff.1 h
    obtain ⟨b, there, rest⟩ := Option.bind_eq_some_iff.1 enter
    exact Option.bind_eq_some_iff.2
      ⟨truth, decided, Option.bind_eq_some_iff.2 ⟨b, found _ b there, rest⟩⟩
  · exact h
  · exact h

theorem Reaches.of_blocks {c c' : Config} (h : m.Reaches c c') : m'.Reaches c c' := by
  induction h with
  | refl c => exact .refl c
  | step next _ ih => exact .step (step_of_blocks found next) ih

end Blocks

end Module

/-- A round of a loop with a counter: the block that the body begins with, the variable of the loop,
and the counter. -/
structure Round where
  label : Label
  var : Text
  counter : Number
  deriving DecidableEq, Repr

/-- Whether a block begins the body of a loop with a counter. -/
def Label.beginsRound : Label → Bool
  | numbered .forBody _ => true
  | _ => false

/-- A round begins: its block is entered while the slot of its variable holds its counter. -/
def Round.BeginsAt (entry : Label × Frame) (r : Round) : Prop :=
  entry.1 = r.label ∧ entry.2.slots r.var = some (some r.counter)

/-- Of the blocks that were entered, those that begin a round begin these, in order. -/
def Begins (entered : List (Label × Frame)) (rounds : List Round) : Prop :=
  List.Forall₂ Round.BeginsAt (entered.filter fun e => e.1.beginsRound) rounds

namespace Begins

variable {entered entered' : List (Label × Frame)} {rounds rounds' : List Round}

theorem nil : Begins [] [] := List.Forall₂.nil

theorem append (first : Begins entered rounds) (rest : Begins entered' rounds') :
    Begins (entered ++ entered') (rounds ++ rounds') := by
  rw [Begins, List.filter_append]
  exact List.rel_append first rest

/-- Another block begins no round. -/
theorem other {l : Label} (h : l.beginsRound = false) (f : Frame) : Begins [(l, f)] [] := by
  simp [Begins, h]

theorem round {r : Round} {f : Frame} (h : r.label.beginsRound = true)
    (slot : f.slots r.var = some (some r.counter)) : Begins [(r.label, f)] [r] := by
  simpa [Begins, h, Round.BeginsAt] using slot

end Begins

end Pseudocode.Llvm
