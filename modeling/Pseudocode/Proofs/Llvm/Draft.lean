import Pseudocode.Llvm.Lower
import Pseudocode.Proofs.Llvm.Machine
import Pseudocode.Proofs.Outcome

/-!
# How a module is put together

Lowering never takes back what it has written. A draft that was made on the way to another one is
found in it: its finished blocks are there, and the block it was writing is there with more code
after what had been written. So whatever is known of the finished module is known of every draft on
the way to it.

Labels are given out before their blocks are written. A label that was given out and has no block
yet is reserved. Every label is reserved once and every block takes one of the reserved labels, so
no two blocks have the same label and each block is the one that is found under its label.
-/

namespace Pseudocode.Llvm

theorem mem_addNew_iff {α : Type} [BEq α] [LawfulBEq α] {xs : List α} {x y : α} :
    y ∈ addNew xs x ↔ y ∈ xs ∨ y = x := by
  rw [addNew]
  split
  · next there =>
    have mem : x ∈ xs := by simpa using there
    exact ⟨.inl, fun h => h.elim id fun same => same ▸ mem⟩
  · rw [List.mem_append, List.mem_singleton]

theorem mem_foldl_addNew_iff {α : Type} [BEq α] [LawfulBEq α] {new xs : List α} {y : α} :
    y ∈ new.foldl addNew xs ↔ y ∈ xs ∨ y ∈ new := by
  induction new generalizing xs with
  | nil => simp
  | cons x new ih => rw [List.foldl_cons, ih, mem_addNew_iff, List.mem_cons, or_assoc]

namespace Draft

/-- The second draft was made by going on from the first. -/
structure Extends (d d' : Draft) : Prop where
  registers : d.registers ≤ d'.registers
  slots : ∀ x ∈ d.slots, x ∈ d'.slots
  finished : ∀ b ∈ d.finished, b ∈ d'.finished
  current : (d'.label = d.label ∧ d.code <+: d'.code) ∨
    ∃ b ∈ d'.finished, b.label = d.label ∧ d.code <+: b.code

namespace Extends

variable {d d' d'' : Draft}

theorem refl (d : Draft) : Extends d d :=
  ⟨Nat.le_refl _, fun _ h => h, fun _ h => h, .inl ⟨rfl, List.prefix_refl _⟩⟩

theorem trans (first : Extends d d') (rest : Extends d' d'') : Extends d d'' := by
  refine ⟨Nat.le_trans first.registers rest.registers, fun x h => rest.slots x (first.slots x h),
    fun b h => rest.finished b (first.finished b h), ?_⟩
  obtain ⟨label, code⟩ | ⟨b, hb, label, code⟩ := first.current
  · obtain ⟨label', code'⟩ | ⟨b, hb, label', code'⟩ := rest.current
    · exact .inl ⟨label'.trans label, code.trans code'⟩
    · exact .inr ⟨b, hb, label'.trans label, code.trans code'⟩
  · exact .inr ⟨b, rest.finished b hb, label, code⟩

end Extends

/-- The second draft has more code in the block that the first one was writing, and nothing else
that an execution depends on is different. -/
structure Emits (d : Draft) (code : List Instr) (d' : Draft) : Prop where
  label : d'.label = d.label
  finished : d'.finished = d.finished
  slots : d'.slots = d.slots
  labels : d'.labels = d.labels
  code : d'.code = d.code ++ code
  registers : d.registers ≤ d'.registers

namespace Emits

variable {d d' d'' : Draft} {code code' : List Instr}

theorem refl (d : Draft) : Emits d [] d := ⟨rfl, rfl, rfl, rfl, by simp, Nat.le_refl _⟩

theorem trans (first : Emits d code d') (rest : Emits d' code' d'') :
    Emits d (code ++ code') d'' where
  label := rest.label.trans first.label
  finished := rest.finished.trans first.finished
  slots := rest.slots.trans first.slots
  labels := rest.labels.trans first.labels
  code := by rw [rest.code, first.code, List.append_assoc]
  registers := Nat.le_trans first.registers rest.registers

theorem extend (h : Emits d code d') : Extends d d' where
  registers := h.registers
  slots _ hx := h.slots ▸ hx
  finished _ hb := h.finished ▸ hb
  current := .inl ⟨h.label, h.code ▸ List.prefix_append _ _⟩

end Emits

/-- The labels of the blocks so far, that of the block being written last. -/
def placed (d : Draft) : List Label := d.finished.map Block.label ++ [d.label]

/-- All labels that were given out are different, be they placed or reserved. -/
structure Fresh (reserved : List Label) (d : Draft) : Prop where
  distinct : (d.placed ++ reserved).Pairwise fun a b => a.rank ≠ b.rank
  bounded : ∀ l ∈ d.placed ++ reserved, 0 < l.rank ∧ l.rank ≤ d.labels

theorem Fresh.of_perm {d d' : Draft} {reserved reserved' : List Label}
    (perm : (d'.placed ++ reserved').Perm (d.placed ++ reserved)) (labels : d'.labels = d.labels)
    (fresh : Fresh reserved d) : Fresh reserved' d' where
  distinct := (perm.pairwise_iff fun h => Ne.symm h).2 fresh.distinct
  bounded l hl := labels ▸ fresh.bounded l (perm.mem_iff.1 hl)

theorem Emits.fresh {d d' : Draft} {code : List Instr} {reserved : List Label} (h : Emits d code d')
    (fresh : Fresh reserved d) : Fresh reserved d' := by
  have same : d'.placed = d.placed := by rw [placed, placed, h.finished, h.label]
  exact fresh.of_perm (same ▸ .refl _) h.labels

theorem fresh_initial : Fresh [] initial := by
  refine ⟨by simp [placed, initial], ?_⟩
  simp [placed, initial, Label.start, Label.rank]

end Draft

namespace Lowering

variable {d d' : Draft} {reserved : List Label}

open Draft

theorem emits_define {op : Operation} {r : Register} (h : define op d = (.ok r, d')) :
    r = d.registers ∧ d.Emits [.define r op] d' ∧ d'.registers = d.registers + 1 := by
  cases h
  exact ⟨rfl, ⟨rfl, rfl, rfl, rfl, rfl, Nat.le_succ _⟩, rfl⟩

end Lowering

namespace Draft

/-- Going on from the first draft came to the second, and took care of its labels. -/
structure Grows (d d' : Draft) : Prop where
  extend : Extends d d'
  fresh {reserved : List Label} : Fresh reserved d → Fresh reserved d'

/-- Labels were reserved, the last one first, and nothing was written. -/
structure Reserves (d : Draft) (labels : List Label) (d' : Draft) : Prop where
  extend : Extends d d'
  emits : d'.label = d.label ∧ d'.code = d.code
  count : d'.labels = d.labels + labels.length
  fresh {reserved : List Label} : Fresh reserved d → Fresh (labels ++ reserved) d'

/-- The block being written was finished, and the next one begun under a reserved label. -/
structure Closes (d : Draft) (t : Terminator) (next : Label) (d' : Draft) : Prop where
  extend : Extends d d'
  finished : ⟨d.label, d.code, t⟩ ∈ d'.finished
  label : d'.label = next
  code : d'.code = []
  count : d'.labels = d.labels
  fresh {reserved : List Label} (before : List Label) :
    Fresh (before ++ next :: reserved) d → Fresh (before ++ reserved) d'

variable {d d' d'' : Draft}

theorem Grows.refl (d : Draft) : Grows d d := ⟨.refl d, id⟩

theorem Grows.trans (first : Grows d d') (rest : Grows d' d'') : Grows d d'' :=
  ⟨first.extend.trans rest.extend, fun h => rest.fresh (first.fresh h)⟩

theorem Emits.grows {code : List Instr} (h : Emits d code d') : Grows d d' := ⟨h.extend, h.fresh⟩

theorem Reserves.trans {labels labels' : List Label} (first : Reserves d labels d')
    (rest : Reserves d' labels' d'') : Reserves d (labels' ++ labels) d'' where
  extend := first.extend.trans rest.extend
  emits := ⟨rest.emits.1.trans first.emits.1, rest.emits.2.trans first.emits.2⟩
  count := by
    rw [rest.count, first.count, List.length_append]
    omega
  fresh h := by
    rw [List.append_assoc]
    exact rest.fresh (first.fresh h)

end Draft

namespace Lowering

variable {d d' : Draft}

open Draft

theorem reserves_newLabel {role : Role} {l : Label} (h : newLabel role d = (.ok l, d')) :
    l = .numbered role d.labels ∧ d.Reserves [l] d' := by
  cases h
  refine ⟨rfl, ⟨Nat.le_refl _, fun _ h => h, fun _ h => h, .inl ⟨rfl, List.prefix_refl _⟩⟩,
    ⟨rfl, rfl⟩, rfl, ?_⟩
  intro reserved fresh
  have perm : (d.placed ++ .numbered role d.labels :: reserved).Perm
      (.numbered role d.labels :: (d.placed ++ reserved)) := List.perm_middle
  constructor
  · -- The new label has a rank above all others.
    refine (perm.pairwise_iff fun h => Ne.symm h).2 (List.pairwise_cons.2 ⟨?_, fresh.distinct⟩)
    intro l hl same
    have bound : l.rank ≤ d.labels := (fresh.bounded l hl).2
    have newest : d.labels + 1 = l.rank := same
    omega
  · intro l hl
    rcases List.mem_cons.1 (perm.mem_iff.1 hl) with rfl | hl
    · simp [Label.rank]
    · have bound := fresh.bounded l hl
      exact ⟨bound.1, Nat.le_succ_of_le bound.2⟩

theorem closes_finish {t : Terminator} {next : Label} (h : finish t next d = (.ok (), d')) :
    d.Closes t next d' := by
  cases h
  have there : (⟨d.label, d.code, t⟩ : Block) ∈ d.finished ++ [⟨d.label, d.code, t⟩] :=
    List.mem_append_right _ (List.mem_singleton_self _)
  refine ⟨⟨Nat.le_refl _, fun _ h => h, fun _ h => List.mem_append_left _ h, ?_⟩, there, rfl, rfl,
    rfl, ?_⟩
  · exact .inr ⟨_, there, rfl, List.prefix_refl _⟩
  · intro reserved before fresh
    refine Fresh.of_perm (d := d) ?_ rfl fresh
    simp only [placed, List.map_append, List.map_cons, List.map_nil, List.append_assoc,
      List.cons_append, List.nil_append]
    exact (List.perm_middle.symm.cons _).append_left _

end Lowering

theorem find?_label {blocks : List Block} {b : Block}
    (distinct : blocks.Pairwise fun a b => a.label.rank ≠ b.label.rank) (h : b ∈ blocks) :
    blocks.find? (fun a => a.label == b.label) = some b := by
  induction blocks with
  | nil => cases h
  | cons a rest ih =>
    obtain ⟨differs, distinct⟩ := List.pairwise_cons.1 distinct
    rcases List.mem_cons.1 h with rfl | h
    · simp
    · have other : a.label ≠ b.label := fun same => differs b h (congrArg Label.rank same)
      rw [List.find?_cons_of_neg (by simpa using other)]
      exact ih distinct h

namespace Draft

variable {F d d' d'' : Draft}

/-- Every block of a draft is found under its label in the module. -/
theorem block?_toModule (fresh : Fresh [] F) {b : Block} (h : b ∈ F.finished ++ [F.last]) :
    F.toModule.block? b.label = some b := by
  have placed : F.placed ++ [] = (F.finished ++ [F.last]).map Block.label := by
    simp [placed, last]
  have distinct := fresh.distinct
  have positive := (fresh.bounded b.label (placed ▸ List.mem_map_of_mem h)).1
  rw [placed, List.pairwise_map] at distinct
  have sorted := List.mergeSort_perm (F.finished ++ [F.last])
    (fun a b => a.label.rank ≤ b.label.rank)
  have notEntry : F.entry.label ≠ b.label := by
    intro same
    rw [← same] at positive
    exact absurd positive (Nat.lt_irrefl 0)
  rw [Module.block?, toModule, List.find?_cons_of_neg (by simpa using notEntry)]
  exact find?_label ((sorted.pairwise_iff fun h => Ne.symm h).2 distinct) (sorted.mem_iff.2 h)

/-- The module of a draft with its blocks in the order in which they were finished. -/
def unsorted (d : Draft) : Module :=
  { d.toModule with blocks := d.entry :: (d.finished ++ [d.last]) }

theorem block?_of_unsorted (fresh : Fresh [] F) {l : Label} {b : Block}
    (h : F.unsorted.block? l = some b) : F.toModule.block? l = some b := by
  rw [Module.block?, unsorted] at h
  by_cases entry : F.entry.label = l
  · rw [List.find?_cons_of_pos (by simpa using entry)] at h
    rw [Module.block?, toModule, List.find?_cons_of_pos (by simpa using entry), h]
  · rw [List.find?_cons_of_neg (by simpa using entry)] at h
    have label : b.label = l := by simpa using List.find?_some h
    rw [← label]
    exact block?_toModule fresh (List.mem_of_find?_eq_some h)

/-- Where execution is when it has come to the end of a draft: before what was written after it. -/
def At (F d : Draft) (c : Control) : Prop :=
  ∃ rest t, F.toModule.block? d.label = some ⟨d.label, d.code ++ rest, t⟩ ∧ c = .running rest t

theorem exists_at (fresh : Fresh [] F) (extend : d.Extends F) : ∃ c, At F d c := by
  obtain ⟨label, rest, code⟩ | ⟨b, hb, label, rest, code⟩ := extend.current
  · have found := block?_toModule fresh (List.mem_append_right _ (List.mem_singleton_self F.last))
    refine ⟨_, rest, .ret, ?_, rfl⟩
    rw [code, ← label]
    exact found
  · have found := block?_toModule fresh (List.mem_append_left _ hb)
    refine ⟨_, rest, b.terminator, ?_, rfl⟩
    rw [code, ← label]
    exact found

theorem At.unique {c c' : Control} (h : At F d c) (h' : At F d c') : c = c' := by
  obtain ⟨rest, t, found, rfl⟩ := h
  obtain ⟨rest', t', found', rfl⟩ := h'
  rw [found] at found'
  have same := Option.some.inj found'
  simp only [Block.mk.injEq, List.append_cancel_left_eq, true_and] at same
  rw [same.1, same.2]

/-- Execution comes from the end of one draft to the end of another. -/
def Goes (F d : Draft) (f : Frame) (d' : Draft) (f' : Frame) : Prop :=
  ∃ c c', At F d c ∧ At F d' c' ∧ F.toModule.Reaches ⟨c, f⟩ ⟨c', f'⟩

/-- Execution comes from the end of one draft to the end of another, and the blocks that are entered
on the way begin some rounds. -/
def Takes (F d : Draft) (f : Frame) (rounds : List Round) (d' : Draft) (f' : Frame) : Prop :=
  ∃ c c' entered, At F d c ∧ At F d' c' ∧ F.toModule.Passes ⟨c, f⟩ entered ⟨c', f'⟩ ∧
    Begins entered rounds

namespace Takes

variable {f f' f'' : Frame} {rounds rounds' : List Round}

theorem goes (h : Takes F d f rounds d' f') : Goes F d f d' f' := by
  obtain ⟨c, c', _, start, stop, passes, _⟩ := h
  exact ⟨c, c', start, stop, passes.reaches⟩

theorem trans (first : Takes F d f rounds d' f') (rest : Takes F d' f' rounds' d'' f'') :
    Takes F d f (rounds ++ rounds') d'' f'' := by
  obtain ⟨c, c₁, _, start, middle, passes, begins⟩ := first
  obtain ⟨c₂, c', _, middle', stop, passes', begins'⟩ := rest
  cases middle.unique middle'
  exact ⟨c, c', _, start, stop, passes.trans passes', begins.append begins'⟩

/-- Where nothing was written, nothing is executed. -/
theorem same (fresh : Fresh [] F) (extend : d'.Extends F) (label : d'.label = d.label)
    (code : d'.code = d.code) (f : Frame) : Takes F d f [] d' f := by
  obtain ⟨c, rest, t, found, rfl⟩ := exists_at fresh extend
  exact ⟨_, _, [], ⟨rest, t, by rw [← label, ← code]; exact found, rfl⟩, ⟨rest, t, found, rfl⟩,
    .refl _, .nil⟩

/-- Code that was written is executed. -/
theorem code (fresh : Fresh [] F) (extend : d'.Extends F) {code : List Instr}
    (label : d'.label = d.label) (written : d'.code = d.code ++ code)
    (ran : execCode code f = some f') : Takes F d f [] d' f' := by
  obtain ⟨c, rest, t, found, rfl⟩ := exists_at fresh extend
  refine ⟨.running (code ++ rest) t, .running rest t, [], ⟨code ++ rest, t, ?_, rfl⟩,
    ⟨rest, t, found, rfl⟩, .of_execCode ran rest t, .nil⟩
  rw [← label, ← List.append_assoc, ← written]
  exact found

end Takes

/-- A block that was finished ends with its terminator. -/
theorem Closes.at {t : Terminator} {next : Label} (h : d.Closes t next d') (fresh : Fresh [] F)
    (extend : d'.Extends F) : At F d (.running [] t) := by
  have found := block?_toModule fresh (List.mem_append_left [F.last] (extend.finished _ h.finished))
  exact ⟨[], t, by simpa using found, rfl⟩

/-- The beginning of a block is found under its label. -/
theorem exists_begin (fresh : Fresh [] F) (extend : d.Extends F) (code : d.code = []) :
    ∃ b, F.toModule.block? d.label = some b ∧ At F d b.begin := by
  obtain ⟨c, rest, t, found, rfl⟩ := exists_at fresh extend
  refine ⟨⟨d.label, d.code ++ rest, t⟩, found, rest, t, found, ?_⟩
  rw [Block.begin, code, List.nil_append]

theorem Takes.jump (fresh : Fresh [] F) {target next : Label}
    (closes : d.Closes (.jump target) next d') (extend : d'.Extends F) (extend' : d''.Extends F)
    (label : d''.label = target) (code : d''.code = []) {f : Frame} {rounds : List Round}
    (begins : Begins [(target, f)] rounds) : Takes F d f rounds d'' f := by
  obtain ⟨b, found, starts⟩ := exists_begin fresh extend' code
  refine ⟨_, _, _, closes.at fresh extend, starts, .single ?_, begins⟩
  simp [Module.step, ← label, found]

theorem Takes.branch (fresh : Fresh [] F) {r : Register} {yes no next : Label} {truth : Bool}
    {f : Frame} (closes : d.Closes (.branch r yes no) next d') (decided : f.truth? r = some truth)
    (extend : d'.Extends F) (extend' : d''.Extends F)
    (label : d''.label = if truth then yes else no) (code : d''.code = []) {rounds : List Round}
    (begins : Begins [(d''.label, f)] rounds) : Takes F d f rounds d'' f := by
  obtain ⟨b, found, starts⟩ := exists_begin fresh extend' code
  have next : F.toModule.step ⟨.running [] (.branch r yes no), f⟩ = some ⟨b.begin, f⟩ := by
    simp [Module.step, decided, ← label, found]
  refine ⟨_, _, _, closes.at fresh extend, starts, .single next, ?_⟩
  simpa [Config.entry?, decided, ← label] using begins

end Draft

end Pseudocode.Llvm
