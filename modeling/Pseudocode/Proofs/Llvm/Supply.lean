import Pseudocode.Proofs.Llvm.Draft
import Pseudocode.Proofs.Llvm.WellFormed

/-!
# What a draft supplies

The work on a module keeps an account: which labels have no block yet, which labels may be gone to
and what registers are there when control comes to them, which registers are there now, and which
variables have a slot. A draft allows an account if all of it is true of what has been written.

Each step of the work leads from one account to another, whatever the draft. A statement leaves the
account as it was, however many blocks it has made: what was there in front of it is there behind
it, and it has placed the labels that it reserved.
-/

namespace Pseudocode.Llvm

/-- What instructions may name: variables with a slot, routines and string constants. -/
structure Names where
  slots : List Text := []
  routines : List Routine := []
  strings : List Text := []

/-- The second names are among the first. -/
structure Names.Cover (n n' : Names) : Prop where
  slots : n'.slots ⊆ n.slots
  routines : n'.routines ⊆ n.routines
  strings : n'.strings ⊆ n.strings

namespace Names.Cover

theorem refl (n : Names) : n.Cover n :=
  ⟨List.Subset.refl _, List.Subset.refl _, List.Subset.refl _⟩

theorem trans {n n' n'' : Names} (first : n.Cover n') (rest : n'.Cover n'') : n.Cover n'' :=
  ⟨fun _ h => first.slots (rest.slots h), fun _ h => first.routines (rest.routines h),
    fun _ h => first.strings (rest.strings h)⟩

end Names.Cover

/-- An instruction behind the entry: it makes no slot, and names only what it may. -/
def Instr.Declared (n : Names) : Instr → Prop
  | allocate _ => False
  | store _ x => x ∈ n.slots
  | define _ (.load x) => x ∈ n.slots
  | define _ (.call f _) => f ∈ n.routines
  | define _ (.print what) => what.strings ⊆ n.strings
  | define _ _ => True

namespace Instr.Declared

variable {n n' : Names} {i : Instr}

theorem mono (cover : n'.Cover n) (h : i.Declared n) : i.Declared n' := by
  cases i with
  | allocate => exact h
  | store => exact cover.slots h
  | define r op =>
    cases op with
    | load => exact cover.slots h
    | call => exact cover.routines h
    | print => exact fun _ hs => cover.strings (h hs)
    | arithmetic | compare | connect | toDouble => trivial

theorem allocated (h : i.Declared n) : i.allocated? = none := by
  cases i with
  | allocate => exact h.elim
  | store | define => rfl

theorem touched (h : i.Declared n) {x : Text} (touches : i.stored? = some x ∨ i.loaded? = some x) :
    x ∈ n.slots := by
  cases i with
  | allocate => exact h.elim
  | store v y =>
    obtain rfl : y = x := by simpa [Instr.stored?, Instr.loaded?] using touches
    exact h
  | define r op =>
    cases op with
    | load y =>
      obtain rfl : y = x := by simpa [Instr.stored?, Instr.loaded?] using touches
      exact h
    | _ => simp [Instr.stored?, Instr.loaded?] at touches

theorem called (h : i.Declared n) {f : Routine} (calls : i.called? = some f) : f ∈ n.routines := by
  cases i with
  | allocate => exact h.elim
  | store => cases calls
  | define r op =>
    cases op with
    | call g v =>
      obtain rfl : g = f := Option.some.inj calls
      exact h
    | _ => cases calls

theorem named (h : i.Declared n) : i.strings ⊆ n.strings := by
  cases i with
  | allocate => exact h.elim
  | store => exact List.nil_subset _
  | define r op =>
    cases op with
    | print => exact h
    | _ => exact List.nil_subset _

end Instr.Declared

/-- What the work relies on. -/
structure Account where
  reserved : List Label := []
  known : List (Label × List Register) := []
  live : List Register := []
  names : Names := {}

namespace Account

/-- The account before the first statement: nothing is there at the start. -/
def initial : Account := { known := [(.start, [])] }

/-- The account when some more registers are there. -/
def having (Γ : Account) (rs : List Register) : Account := { Γ with live := rs ++ Γ.live }

/-- The account when other names were met. -/
def naming (Γ : Account) (n : Names) : Account := { Γ with names := n }

/-- The account inside a statement that has made some labels: they are come to with what was there
when they were made, and some of them have no block yet. -/
def within (Γ : Account) (reserved made : List Label) : Account :=
  { Γ with
    reserved := reserved ++ Γ.reserved
    known := made.map (·, Γ.live) ++ Γ.known }

/-- A label can be gone to. -/
def Knows (Γ : Account) (l : Label) : Prop := ∃ needed, (l, needed) ∈ Γ.known ∧ needed ⊆ Γ.live

/-- The second account relies on no more than the first, with the same labels reserved. -/
structure Covers (Γ Γ' : Account) : Prop where
  reserved : Γ'.reserved = Γ.reserved
  known : Γ'.known ⊆ Γ.known
  live : Γ'.live ⊆ Γ.live
  names : Γ.names.Cover Γ'.names

theorem Covers.refl (Γ : Account) : Γ.Covers Γ :=
  ⟨rfl, List.Subset.refl _, List.Subset.refl _, .refl _⟩

theorem Covers.trans {Γ Γ' Γ'' : Account} (first : Γ.Covers Γ') (rest : Γ'.Covers Γ'') :
    Γ.Covers Γ'' :=
  ⟨rest.reserved.trans first.reserved, fun _ h => first.known (rest.known h),
    fun _ h => first.live (rest.live h), first.names.trans rest.names⟩

theorem covers_having (Γ : Account) (rs : List Register) : (Γ.having rs).Covers Γ :=
  ⟨rfl, List.Subset.refl _, List.subset_append_right _ _, .refl _⟩

theorem covers_naming {Γ : Account} {n : Names} (cover : n.Cover Γ.names) : (Γ.naming n).Covers Γ :=
  ⟨rfl, List.Subset.refl _, List.Subset.refl _, cover⟩

/-- Behind a statement, its labels are forgotten. -/
theorem covers_within (Γ : Account) (made : List Label) : (Γ.within [] made).Covers Γ :=
  ⟨rfl, List.subset_append_right _ _, List.Subset.refl _, .refl _⟩

theorem knows_within (Γ : Account) (reserved : List Label) {made : List Label} {l : Label}
    (mem : l ∈ made) : (Γ.within reserved made).Knows l :=
  ⟨Γ.live, List.mem_append_left _ (List.mem_map_of_mem mem), List.Subset.refl _⟩

theorem Knows.within {Γ : Account} {l : Label} (known : Γ.Knows l) (reserved made : List Label) :
    (Γ.within reserved made).Knows l := by
  obtain ⟨needed, mem, enough⟩ := known
  exact ⟨needed, List.mem_append_right _ mem, enough⟩

theorem Knows.mono {Γ Γ' : Account} {l : Label} (known : Γ'.Knows l) (covers : Γ.Covers Γ') :
    Γ.Knows l := by
  obtain ⟨needed, mem, enough⟩ := known
  exact ⟨needed, covers.known mem, fun _ h => covers.live (enough h)⟩

theorem Covers.having {Γ Γ' : Account} (covers : Γ.Covers Γ') (rs : List Register) :
    (Γ.having rs).Covers (Γ'.having rs) :=
  ⟨covers.reserved, covers.known,
    List.append_subset.2 ⟨List.subset_append_left _ _, fun _ h =>
      List.mem_append_right _ (covers.live h)⟩, covers.names⟩

end Account

/-- A block that nothing was written in asks for nothing but what its end needs. -/
theorem Block.supplied_of_nil {supply : Label → List Register} {b : Block} (code : b.code = [])
    (reads : b.terminator.reads ⊆ supply b.label)
    (targets : ∀ l ∈ b.terminator.targets, supply l ⊆ supply b.label) : b.Supplied supply where
  code standing := absurd (List.prefix_nil.1 (code ▸ standing)) (by simp)
  reads _ hr := List.mem_append_left _ (reads hr)
  targets l hl _ hr := List.mem_append_left _ (targets l hl hr)

namespace Draft

/-- What was met so far. -/
def names (d : Draft) : Names := ⟨d.slots, d.routines, d.strings⟩

/-- All instructions so far. -/
def instrs (d : Draft) : List Instr := d.finished.flatMap Block.code ++ d.code

/-- The account is kept if labels supply these registers. -/
structure Flows (supply : Label → List Register) (Γ : Account) (d : Draft) : Prop where
  entry : supply .entry = []
  blocks : ∀ b ∈ d.finished ++ [d.last], b.Supplied supply
  targets : ∀ b ∈ d.finished, ∀ l ∈ b.terminator.targets, l ∈ d.placed ++ Γ.reserved
  known : ∀ k ∈ Γ.known, k.1 ∈ d.placed ++ Γ.reserved ∧ supply k.1 = k.2
  live : Γ.live ⊆ supply d.label ++ resultsOf d.code

/-- The account is true of a draft. -/
structure Allows (Γ : Account) (d : Draft) : Prop where
  fresh : Fresh Γ.reserved d
  count : (d.placed ++ Γ.reserved).length = d.labels
  results : d.finished.flatMap Block.results ++ resultsOf d.code = List.range d.registers
  names : d.names.Cover Γ.names
  distinct : d.slots.Nodup ∧ d.routines.Nodup ∧ d.strings.Nodup
  declared : ∀ i ∈ d.instrs, i.Declared d.names
  flows : ∃ supply, Flows supply Γ d

theorem allows_initial : Allows .initial initial where
  fresh := fresh_initial
  count := rfl
  results := rfl
  names := ⟨List.nil_subset _, List.nil_subset _, List.nil_subset _⟩
  distinct := ⟨List.nodup_nil, List.nodup_nil, List.nodup_nil⟩
  declared := List.forall_mem_nil _
  flows := by
    refine ⟨fun _ => [], rfl, ?_, List.forall_mem_nil _, ?_, List.nil_subset _⟩
    · intro b hb
      rw [List.mem_singleton.1 hb]
      exact Block.supplied_of_nil rfl (List.nil_subset _) (List.forall_mem_nil _)
    · intro k hk
      rw [List.mem_singleton.1 hk]
      exact ⟨List.mem_singleton_self _, rfl⟩

variable {Γ Γ' : Account} {d : Draft}

theorem Allows.weaken (covers : Γ.Covers Γ') (h : d.Allows Γ) : d.Allows Γ' := by
  obtain ⟨supply, flows⟩ := h.flows
  constructor
  case fresh => exact covers.reserved ▸ h.fresh
  case count => exact covers.reserved ▸ h.count
  case results => exact h.results
  case names => exact h.names.trans covers.names
  case distinct => exact h.distinct
  case declared => exact h.declared
  case flows =>
    exact ⟨supply, flows.entry, flows.blocks, covers.reserved ▸ flows.targets,
      fun k hk => covers.reserved ▸ flows.known k (covers.known hk),
      fun r hr => flows.live (covers.live hr)⟩

/-- More variables, routines and strings are met. -/
theorem Allows.meet (h : d.Allows Γ) {n m : Names} (grown : n.Cover d.names) (cover : n.Cover m)
    (distinct : n.slots.Nodup ∧ n.routines.Nodup ∧ n.strings.Nodup) :
    Allows (Γ.naming m)
      { d with slots := n.slots, routines := n.routines, strings := n.strings } := by
  obtain ⟨supply, flows⟩ := h.flows
  constructor
  case fresh => exact ⟨h.fresh.distinct, h.fresh.bounded⟩
  case count => exact h.count
  case results => exact h.results
  case names => exact cover
  case distinct => exact distinct
  case declared => exact fun i hi => (h.declared i hi).mono grown
  case flows =>
    exact ⟨supply, flows.entry, flows.blocks, flows.targets, flows.known, flows.live⟩

/-- An instruction is written that reads what is there. -/
theorem Allows.write (h : d.Allows Γ) {i : Instr} {registers : Nat} (reads : i.reads ⊆ Γ.live)
    (declared : i.Declared Γ.names)
    (numbered : List.range d.registers ++ i.result?.toList = List.range registers) :
    Allows (Γ.having i.result?.toList)
      { d with code := d.code ++ [i], registers := registers } := by
  obtain ⟨supply, flows⟩ := h.flows
  have defined : resultsOf (d.code ++ [i]) = resultsOf d.code ++ i.result?.toList := by
    rw [resultsOf_append]
    cases hi : i.result? with
    | _ => simp [resultsOf, hi]
  constructor
  case fresh => exact ⟨h.fresh.distinct, h.fresh.bounded⟩
  case count => exact h.count
  case results =>
    show d.finished.flatMap Block.results ++ resultsOf (d.code ++ [i]) = _
    rw [defined, ← List.append_assoc, h.results, numbered]
  case names => exact h.names
  case distinct => exact h.distinct
  case declared =>
    intro j hj
    rw [instrs, ← List.append_assoc] at hj
    rcases List.mem_append.1 hj with earlier | last
    · exact h.declared j earlier
    · rw [List.mem_singleton.1 last]
      exact declared.mono h.names
  case flows =>
    refine ⟨supply, flows.entry, ?_, flows.targets, flows.known, ?_⟩
    · intro b hb
      rcases List.mem_append.1 hb with earlier | current
      · exact flows.blocks b (List.mem_append_left _ earlier)
      · have last := flows.blocks d.last (List.mem_append_right _ (List.mem_singleton_self _))
        rw [List.mem_singleton.1 current]
        refine ⟨fun {pre j} standing => ?_, List.nil_subset _, List.forall_mem_nil _⟩
        rcases List.prefix_concat_iff.1 standing with new | old
        · obtain ⟨rfl, same⟩ := List.append_inj' new rfl
          rw [List.singleton_inj.1 same]
          exact fun r hr => flows.live (reads hr)
        · exact last.code old
    · show i.result?.toList ++ Γ.live ⊆ supply d.label ++ resultsOf (d.code ++ [i])
      rw [defined]
      intro r hr
      rcases List.mem_append.1 hr with new | old
      · exact List.mem_append_right _ (List.mem_append_right _ new)
      · rw [← List.append_assoc]
        exact List.mem_append_left _ (flows.live old)

/-- A label is reserved, for a block that is come to with what is there now. -/
theorem Allows.reserve (h : d.Allows Γ) (role : Role) :
    Allows (Γ.within [.numbered role d.labels] [.numbered role d.labels])
      { d with labels := d.labels + 1 } := by
  obtain ⟨supply, flows⟩ := h.flows
  have made : Lowering.newLabel role d =
      (.ok (.numbered role d.labels), { d with labels := d.labels + 1 }) := rfl
  have reserves := (Lowering.reserves_newLabel made).2
  have grown {l : Label} (hl : l ∈ d.placed ++ Γ.reserved) :
      l ∈ d.placed ++ .numbered role d.labels :: Γ.reserved := by
    rcases List.mem_append.1 hl with placed | reserved
    · exact List.mem_append_left _ placed
    · exact List.mem_append_right _ (List.mem_cons_of_mem _ reserved)
  -- What was given out before is not the new label.
  have old {l : Label} (hl : l ∈ d.placed ++ Γ.reserved) :
      Function.update supply (.numbered role d.labels) Γ.live l = supply l := by
    refine Function.update_of_ne (fun same => ?_) _ _
    have bound := (h.fresh.bounded l hl).2
    rw [same, Label.rank] at bound
    omega
  have placed {b : Block} (hb : b ∈ d.finished ++ [d.last]) : b.label ∈ d.placed ++ Γ.reserved := by
    refine List.mem_append_left _ ?_
    rcases List.mem_append.1 hb with finished | last
    · exact List.mem_append_left _ (List.mem_map_of_mem finished)
    · rw [List.mem_singleton.1 last]
      exact List.mem_append_right _ (List.mem_singleton_self _)
  constructor
  case fresh => exact reserves.fresh h.fresh
  case count =>
    show (d.placed ++ .numbered role d.labels :: Γ.reserved).length = d.labels + 1
    rw [← h.count, List.length_append, List.length_append, List.length_cons]
    omega
  case results => exact h.results
  case names => exact h.names
  case distinct => exact h.distinct
  case declared => exact h.declared
  case flows =>
    refine ⟨Function.update supply (.numbered role d.labels) Γ.live, ?_, ?_, ?_, ?_, ?_⟩
    · rw [Function.update_of_ne (by simp), flows.entry]
    · intro b hb
      refine (flows.blocks b hb).congr (old (placed hb)) fun l hl => old ?_
      rcases List.mem_append.1 hb with finished | last
      · exact flows.targets b finished l hl
      · rw [List.mem_singleton.1 last] at hl
        cases hl
    · exact fun b hb l hl => grown (flows.targets b hb l hl)
    · intro k hk
      rcases List.mem_cons.1 hk with rfl | hk
      · exact ⟨List.mem_append_right _ (List.mem_cons_self ..), Function.update_self ..⟩
      · exact ⟨grown (flows.known k hk).1, (old (flows.known k hk).1).trans (flows.known k hk).2⟩
    · have same := old (placed (List.mem_append_right _ (List.mem_singleton_self d.last)))
      show Γ.live ⊆ Function.update supply _ Γ.live d.last.label ++ resultsOf d.code
      rw [same]
      exact flows.live

/-- The block being written is finished, and the work goes on under a reserved label. -/
theorem Allows.finish (h : d.Allows Γ) {t : Terminator} {next : Label} {before after : List Label}
    {live : List Register} (reserved : Γ.reserved = before ++ next :: after)
    (known : (next, live) ∈ Γ.known) (reads : t.reads ⊆ Γ.live)
    (targets : ∀ l ∈ t.targets, Γ.Knows l) :
    Allows { Γ with reserved := before ++ after, live := live }
      { d with finished := d.finished ++ [⟨d.label, d.code, t⟩], label := next, code := [] } := by
  obtain ⟨supply, flows⟩ := h.flows
  have finished : Lowering.finish t next d = (.ok (),
      { d with finished := d.finished ++ [⟨d.label, d.code, t⟩], label := next, code := [] }) := rfl
  have closes := Lowering.closes_finish finished
  have perm : ((d.finished ++ [(⟨d.label, d.code, t⟩ : Block)]).map Block.label ++ [next] ++
      (before ++ after)).Perm (d.placed ++ Γ.reserved) := by
    simp only [reserved, placed, List.map_append, List.map_cons, List.map_nil, List.append_assoc,
      List.cons_append, List.nil_append]
    exact (List.perm_middle.symm.cons _).append_left _
  have last := flows.blocks d.last (List.mem_append_right _ (List.mem_singleton_self _))
  have there {l : Label} {needed : List Register} (hl : (l, needed) ∈ Γ.known) :
      l ∈ d.placed ++ Γ.reserved ∧ supply l = needed := flows.known _ hl
  constructor
  case fresh => exact closes.fresh before (reserved ▸ h.fresh)
  case count => exact perm.length_eq.trans h.count
  case results =>
    rw [← h.results]
    simp [Block.results, resultsOf]
  case names => exact h.names
  case distinct => exact h.distinct
  case declared => exact fun i hi => h.declared i (by simpa [instrs] using hi)
  case flows =>
    refine ⟨supply, flows.entry, ?_, ?_, fun k hk => ?_, ?_⟩
    · intro b hb
      rcases List.mem_append.1 hb with finished | current
      · rcases List.mem_append.1 finished with earlier | closed
        · exact flows.blocks b (List.mem_append_left _ earlier)
        · rw [List.mem_singleton.1 closed]
          refine ⟨last.code, fun r hr => flows.live (reads hr), fun l hl r hr => flows.live ?_⟩
          obtain ⟨needed, known, enough⟩ := targets l hl
          exact enough ((there known).2 ▸ hr)
      · rw [List.mem_singleton.1 current]
        exact Block.supplied_of_nil rfl (List.nil_subset _) (List.forall_mem_nil _)
    · intro b hb l hl
      refine perm.mem_iff.2 ?_
      rcases List.mem_append.1 hb with earlier | closed
      · exact flows.targets b earlier l hl
      · rw [List.mem_singleton.1 closed] at hl
        obtain ⟨needed, known, _⟩ := targets l hl
        exact (there known).1
    · exact ⟨perm.mem_iff.2 (flows.known k hk).1, (flows.known k hk).2⟩
    · intro r hr
      refine List.mem_append_left _ ?_
      show r ∈ supply next
      rw [(there known).2]
      exact hr

end Draft

end Pseudocode.Llvm
