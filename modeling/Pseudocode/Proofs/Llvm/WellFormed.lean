import Pseudocode.Llvm.Lower
import Pseudocode.Proofs.Llvm.Names

/-!
# Well-formed modules

What makes a module acceptable before anything of it is carried out. Every block has a name of its
own, control only goes to blocks that are there, and whatever an instruction reads, a register or
the slot of a variable, was made on every way that control can take to it.

To see the last it is enough to give, for each label, some registers that are there whenever control
comes to it, so that each block supplies at its end what the labels it goes to ask for.
-/

namespace Pseudocode.Llvm

/-- The registers that an operand reads. -/
def Operand.reads : Operand → List Register
  | constant _ => []
  | register r => [r]

/-- The registers that a printing call reads. -/
def Printed.reads : Printed → List Register
  | number v => v.reads
  | _ => []

/-- The registers that an operation reads. -/
def Operation.reads : Operation → List Register
  | load _ => []
  | arithmetic _ a b => a.reads ++ b.reads
  | compare _ a b => a.reads ++ b.reads
  | connect _ a b => [a, b]
  | toDouble r => [r]
  | call _ v => v.reads
  | print what => what.reads

namespace Instr

/-- The registers that an instruction reads. -/
def reads : Instr → List Register
  | allocate _ => []
  | store v _ => v.reads
  | define _ op => op.reads

/-- The variable whose slot an instruction makes. -/
def allocated? : Instr → Option Text
  | allocate x => some x
  | _ => none

/-- The variable whose slot an instruction stores to. -/
def stored? : Instr → Option Text
  | store _ x => some x
  | _ => none

/-- The variable whose slot an instruction loads from. -/
def loaded? : Instr → Option Text
  | define _ (.load x) => some x
  | _ => none

/-- The routine that an instruction calls. -/
def called? : Instr → Option Routine
  | define _ (.call f _) => some f
  | _ => none

/-- The string constants that an instruction names. -/
def strings : Instr → List Text
  | define _ (.print what) => what.strings
  | _ => []

end Instr

namespace Terminator

/-- The registers that the end of a block reads. -/
def reads : Terminator → List Register
  | branch c _ _ => [c]
  | _ => []

/-- The labels that the end of a block goes to. -/
def targets : Terminator → List Label
  | jump l => [l]
  | branch _ yes no => [yes, no]
  | ret => []

end Terminator

/-- The registers that some instructions define. -/
def resultsOf (code : List Instr) : List Register := code.filterMap Instr.result?

@[simp] theorem resultsOf_append (a b : List Instr) :
    resultsOf (a ++ b) = resultsOf a ++ resultsOf b := List.filterMap_append

namespace Module

/-- The variables that have a slot, as often as one is made for them. -/
def slots (m : Module) : List Text := m.blocks.flatMap fun b => b.code.filterMap Instr.allocated?

/-- Control can come to the beginning of a block, and some instructions were carried out by then. -/
inductive Comes (m : Module) : List Instr → Block → Prop
  | entry {b : Block} : m.block? .entry = some b → Comes m [] b
  | goes {before : List Instr} {b b' : Block} {l : Label} :
    Comes m before b → l ∈ b.terminator.targets → m.block? l = some b' →
      Comes m (before ++ b.code) b'

/-- Control can come to an instruction, and some instructions were carried out by then. -/
def ComesTo (m : Module) (before : List Instr) (i : Instr) : Prop :=
  ∃ earlier b pre, m.Comes earlier b ∧ pre ++ [i] <+: b.code ∧ before = earlier ++ pre

/-- Control can come to the end of a block, and some instructions were carried out by then. -/
def ComesToEnd (m : Module) (before : List Instr) (t : Terminator) : Prop :=
  ∃ earlier b, m.Comes earlier b ∧ t = b.terminator ∧ before = earlier ++ b.code

/-- What makes a module acceptable. -/
structure WellFormed (m : Module) : Prop where
  /-- The entry comes first, and each of the numbers given out is that of one block. A block is
  there as often as it was finished, so each was finished once. -/
  labels : ∃ roles : List Role,
    m.blocks.map Block.label = .entry :: roles.mapIdx fun index role => .numbered role index
  /-- No two labels are spelled alike. -/
  labelTexts : (m.blocks.map fun b => b.label.text).Nodup
  /-- Control goes to blocks that are there. -/
  targets : ∀ b ∈ m.blocks, ∀ l ∈ b.terminator.targets, ∃ b' ∈ m.blocks, b'.label = l
  /-- No two instructions define the same register. -/
  results : m.results.Nodup
  /-- What an instruction reads was defined on every way to it. -/
  reads {before : List Instr} {i : Instr} : m.ComesTo before i → i.reads ⊆ resultsOf before
  /-- What the end of a block reads was defined on every way to it. -/
  readsAtEnd {before : List Instr} {t : Terminator} :
    m.ComesToEnd before t → t.reads ⊆ resultsOf before
  /-- No variable has two slots, and no two slots are spelled alike. -/
  slots : m.slots.Nodup ∧ (m.slots.map slotName).Nodup
  /-- The entry makes all slots and sets them to zero, and does nothing else. -/
  entry : m.block? .entry = some
    ⟨.entry, m.slots.flatMap fun x => [.allocate x, .store (.constant 0) x], .jump .start⟩
  /-- A slot that is loaded from or stored to was made on every way to that instruction. -/
  slotFirst {before : List Instr} {i : Instr} {x : Text} :
    m.ComesTo before i → i.stored? = some x ∨ i.loaded? = some x → .allocate x ∈ before
  /-- Behind the entry, it was set to zero before. -/
  zeroFirst {before : List Instr} {b : Block} {i : Instr} {x : Text} :
    m.Comes before b → b.label ≠ .entry → i ∈ b.code →
      i.stored? = some x ∨ i.loaded? = some x → .store (.constant 0) x ∈ before
  /-- No routine is declared twice, and those that are called are declared. -/
  routines : m.routines.Nodup ∧
    ∀ b ∈ m.blocks, ∀ i ∈ b.code, ∀ f, i.called? = some f → f ∈ m.routines
  /-- No string has two constants, and those that are named have one. -/
  strings : m.strings.Nodup ∧ ∀ b ∈ m.blocks, ∀ i ∈ b.code, i.strings ⊆ m.strings
  /-- A constant holds the bytes of its string and a zero. -/
  constants {index : Nat} {s : Text} : m.strings[index]? = some s →
    ∃ body, stringText index s =
        "@.str." ++ Text.ofNat index ++ " = constant [" ++ Text.ofNat (s.bytes ++ [0]).length ++
          " x i8] c\"" ++ ⟨body⟩ ++ "\"\n" ∧
      0x22 ∉ body ∧ unquoted body = s.bytes ++ [0]

end Module

/-- A block reads what is supplied at its label or defined in it, and supplies at its end what the
labels it goes to ask for. -/
structure Block.Supplied (supply : Label → List Register) (b : Block) : Prop where
  code {pre : List Instr} {i : Instr} :
    pre ++ [i] <+: b.code → i.reads ⊆ supply b.label ++ resultsOf pre
  reads : b.terminator.reads ⊆ supply b.label ++ resultsOf b.code
  targets : ∀ l ∈ b.terminator.targets, supply l ⊆ supply b.label ++ resultsOf b.code

theorem Block.Supplied.congr {supply supply' : Label → List Register} {b : Block}
    (h : b.Supplied supply) (own : supply' b.label = supply b.label)
    (next : ∀ l ∈ b.terminator.targets, supply' l = supply l) : b.Supplied supply' where
  code standing := own ▸ h.code standing
  reads := own ▸ h.reads
  targets l hl := by
    rw [own, next l hl]
    exact h.targets l hl

namespace Module

variable {m : Module} {supply : Label → List Register} {before : List Instr} {b : Block}

theorem Comes.mem (h : m.Comes before b) : b ∈ m.blocks := by
  cases h with
  | entry found => exact List.mem_of_find?_eq_some found
  | goes _ _ found => exact List.mem_of_find?_eq_some found

/-- What a label asks for was defined on every way to it. -/
theorem Comes.supplied (all : ∀ b ∈ m.blocks, b.Supplied supply) (entry : supply .entry = [])
    (h : m.Comes before b) : supply b.label ⊆ resultsOf before := by
  have named {l : Label} {b : Block} (found : m.block? l = some b) : b.label = l := by
    simpa using List.find?_some found
  induction h with
  | entry found =>
    rw [named found, entry]
    exact List.nil_subset _
  | @goes before b b' l way target found ih =>
    intro r hr
    rw [named found] at hr
    rw [resultsOf_append]
    rcases List.mem_append.1 ((all b way.mem).targets l target hr) with earlier | own
    · exact List.mem_append_left _ (ih earlier)
    · exact List.mem_append_right _ own

theorem ComesTo.reads (all : ∀ b ∈ m.blocks, b.Supplied supply) (entry : supply .entry = [])
    {i : Instr} (h : m.ComesTo before i) : i.reads ⊆ resultsOf before := by
  obtain ⟨earlier, b, pre, way, standing, rfl⟩ := h
  intro r hr
  rw [resultsOf_append]
  rcases List.mem_append.1 ((all b way.mem).code standing hr) with supplied | own
  · exact List.mem_append_left _ (way.supplied all entry supplied)
  · exact List.mem_append_right _ own

theorem ComesToEnd.reads (all : ∀ b ∈ m.blocks, b.Supplied supply) (entry : supply .entry = [])
    {t : Terminator} (h : m.ComesToEnd before t) : t.reads ⊆ resultsOf before := by
  obtain ⟨earlier, b, way, rfl, rfl⟩ := h
  intro r hr
  rw [resultsOf_append]
  rcases List.mem_append.1 ((all b way.mem).reads hr) with supplied | own
  · exact List.mem_append_left _ (way.supplied all entry supplied)
  · exact List.mem_append_right _ own

/-- The entry was carried out before any other block. -/
theorem Comes.entry_first {e : Block} (entry : m.block? .entry = some e) (h : m.Comes before b) :
    b = e ∨ e.code ⊆ before := by
  induction h with
  | entry found => exact .inl (Option.some.inj (found.symm.trans entry))
  | goes way _ _ ih =>
    refine .inr ?_
    rcases ih with rfl | earlier
    · exact List.subset_append_right _ _
    · exact fun i hi => List.mem_append_left _ (earlier hi)

end Module

end Pseudocode.Llvm
