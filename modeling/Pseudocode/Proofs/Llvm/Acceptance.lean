import Mathlib.Data.List.Perm.Subperm
import Pseudocode.Proofs.Llvm.Assembly
import Pseudocode.Proofs.Llvm.Counters
import Pseudocode.Proofs.Llvm.Subset

/-!
# Every module is well formed

When the work is done, no label is reserved any more. What the account of the last draft says is
then what is asked of its module: the blocks have the labels that were given out, each once, and
each block is supplied with what it reads.
-/

namespace Pseudocode

namespace Llvm

/-- The role of a label. -/
def Label.role : Label → Role
  | entry => .body
  | numbered role _ => role

theorem Label.eq_numbered {l : Label} {index : Nat} (rank : l.rank = index + 1) :
    l = .numbered l.role index := by
  cases l with
  | entry => cases rank
  | numbered role i =>
    cases rank
    rfl

/-- Labels whose ranks are consecutive are numbered from zero. -/
theorem eq_mapIdx_of_ranks {ls : List Label} {n : Nat}
    (ranks : ls.map Label.rank = List.range' 1 n) :
    ls = (ls.map Label.role).mapIdx fun index role => .numbered role index := by
  refine List.ext_getElem (by simp) fun i hi hi' => ?_
  have within : i < (ls.map Label.rank).length := by simpa using hi
  have rank : (ls.map Label.rank)[i] = i + 1 := by simp [ranks, Nat.add_comm]
  rw [List.getElem_mapIdx, List.getElem_map]
  exact Label.eq_numbered (by simpa using rank)

namespace Draft

variable {F : Draft} {b : Block}

/-- The blocks behind the entry, in the order in which they were finished. -/
def blocks (F : Draft) : List Block := F.finished ++ [F.last]

theorem map_label_blocks (F : Draft) : F.blocks.map Block.label = F.placed := by
  rw [blocks, List.map_append]
  rfl

theorem blocks_toModule (F : Draft) :
    F.toModule.blocks =
      F.entry :: F.blocks.mergeSort (fun a b => a.label.rank ≤ b.label.rank) := rfl

theorem mem_toModule : b ∈ F.toModule.blocks ↔ b = F.entry ∨ b ∈ F.blocks := by
  rw [blocks_toModule, List.mem_cons, List.mem_mergeSort]

theorem mem_instrs {i : Instr} (hb : b ∈ F.blocks) (hi : i ∈ b.code) : i ∈ F.instrs := by
  rcases List.mem_append.1 hb with finished | last
  · exact List.mem_append_left _ (List.mem_flatMap.2 ⟨b, finished, hi⟩)
  · rw [List.mem_singleton.1 last] at hi
    exact List.mem_append_right _ hi

section Entry

variable {i : Instr}

theorem mem_entry :
    i ∈ F.entry.code ↔ ∃ x ∈ F.slots, i = .allocate x ∨ i = .store (.constant 0) x := by
  simp [entry]

theorem results_entry (F : Draft) : F.entry.results = [] := by
  refine List.filterMap_eq_nil_iff.2 fun i hi => ?_
  obtain ⟨x, _, rfl | rfl⟩ := mem_entry.1 hi
  · rfl
  · rfl

theorem allocated_entry (F : Draft) : F.entry.code.filterMap Instr.allocated? = F.slots := by
  simp only [entry]
  induction F.slots with
  | nil => rfl
  | cons x rest ih => exact congrArg (x :: ·) ih

theorem block?_entry (F : Draft) : F.toModule.block? .entry = some F.entry := by
  rw [Module.block?, blocks_toModule, List.find?_cons_of_pos (by rfl)]

/-- In the entry, a slot is made before it is set to zero. -/
theorem allocate_mem_of_begins {xs : List Text} {pre : List Instr} {x : Text}
    (standing : pre ++ [i] <+: xs.flatMap fun x => [.allocate x, .store (.constant 0) x])
    (stored : i.stored? = some x) : .allocate x ∈ pre := by
  induction xs generalizing pre with
  | nil => exact absurd (List.prefix_nil.1 standing) (by simp)
  | cons y rest ih =>
    rw [List.flatMap_cons, List.cons_append, List.cons_append, List.nil_append] at standing
    rcases pre with _ | ⟨p, _ | ⟨q, pre⟩⟩
    · rw [List.nil_append, List.cons_prefix_cons] at standing
      rw [standing.1] at stored
      cases stored
    · simp only [List.cons_append, List.nil_append, List.cons_prefix_cons] at standing
      rw [standing.2.1] at stored
      rw [standing.1, Option.some.inj stored]
      exact List.mem_singleton_self _
    · simp only [List.cons_append, List.cons_prefix_cons] at standing
      exact List.mem_cons_of_mem _ (List.mem_cons_of_mem _ (ih standing.2.2))

end Entry

namespace Allows

variable (h : F.Allows .initial)

include h

/-- The blocks behind the entry are those with the ranks that were given out, in order. -/
theorem ranks : (F.blocks.mergeSort fun a b => a.label.rank ≤ b.label.rank).map (·.label.rank) =
    List.range' 1 F.labels := by
  have placed : F.placed ++ [] = F.blocks.map Block.label := by
    rw [List.append_nil, map_label_blocks]
  have count : F.blocks.length = F.labels := by
    rw [← h.count]
    simp [Account.initial, ← map_label_blocks]
  have given : (F.blocks.map (·.label.rank)).Perm (List.range' 1 F.labels) := by
    have distinct : (F.blocks.map (·.label.rank)).Nodup := by
      have pairs := h.fresh.distinct
      rw [Account.initial, placed, List.pairwise_map] at pairs
      exact List.pairwise_map.2 pairs
    refine (List.subperm_of_subset distinct fun r hr => ?_).perm_of_length_le (by simp [count])
    obtain ⟨b, hb, rfl⟩ := List.mem_map.1 hr
    have bound := h.fresh.bounded b.label (by
      rw [Account.initial, placed]
      exact List.mem_map_of_mem hb)
    exact List.mem_range'_1.2 ⟨bound.1, by omega⟩
  have perm := (List.mergeSort_perm F.blocks fun a b => a.label.rank ≤ b.label.rank).map
    (·.label.rank)
  have sorted : (F.blocks.mergeSort fun a b => a.label.rank ≤ b.label.rank).Pairwise
      fun a b => decide (a.label.rank ≤ b.label.rank) = true :=
    List.pairwise_mergeSort (fun _ _ _ => by simpa using Nat.le_trans)
      (fun _ _ => by simpa using Nat.le_total _ _) F.blocks
  refine List.Perm.eq_of_pairwise (fun _ _ _ _ => Nat.le_antisymm) ?_
    ((List.pairwise_lt_range' 1).imp Nat.le_of_lt) (perm.trans given)
  exact List.pairwise_map.2 (sorted.imp of_decide_eq_true)

theorem labels : ∃ roles : List Role, F.toModule.blocks.map Block.label =
    .entry :: roles.mapIdx fun index role => .numbered role index := by
  have ranks := h.ranks
  rw [← Function.comp_def, ← List.map_map] at ranks
  exact ⟨_, congrArg (Label.entry :: ·) (eq_mapIdx_of_ranks ranks)⟩

theorem labelTexts : (F.toModule.blocks.map fun b => b.label.text).Nodup := by
  have distinct : (F.toModule.blocks.map (·.label.rank)).Nodup := by
    rw [blocks_toModule, List.map_cons, h.ranks]
    refine List.nodup_cons.2 ⟨fun mem => ?_, List.nodup_range'⟩
    exact absurd (List.mem_range'_1.1 mem).1 (Nat.not_succ_le_zero 0)
  exact List.pairwise_map.2 ((List.pairwise_map.1 distinct).imp fun differ same =>
    differ (Label.rank_eq_of_text_eq same))

theorem targets : ∀ b ∈ F.toModule.blocks, ∀ l ∈ b.terminator.targets,
    ∃ b' ∈ F.toModule.blocks, b'.label = l := by
  obtain ⟨supply, flows⟩ := h.flows
  have found {l : Label} (hl : l ∈ F.placed ++ []) : ∃ b' ∈ F.toModule.blocks, b'.label = l := by
    rw [List.append_nil, ← map_label_blocks] at hl
    obtain ⟨b', mem, label⟩ := List.mem_map.1 hl
    exact ⟨b', mem_toModule.2 (.inr mem), label⟩
  intro b hb l hl
  rcases mem_toModule.1 hb with rfl | hb
  · rw [List.mem_singleton.1 hl]
    exact found (flows.known _ (List.mem_singleton_self _)).1
  · rcases List.mem_append.1 hb with finished | last
    · exact found (flows.targets b finished l hl)
    · rw [List.mem_singleton.1 last] at hl
      cases hl

theorem declared_of_mem (hb : b ∈ F.blocks) {i : Instr} (hi : i ∈ b.code) :
    i.Declared F.names := h.declared i (mem_instrs hb hi)

/-- The registers of the module are those that were given out. -/
theorem results_perm : F.toModule.results.Perm (List.range F.registers) := by
  have behind : F.blocks.flatMap Block.results = List.range F.registers := by
    rw [← h.results, blocks, List.flatMap_append]
    simp [last, Block.results, resultsOf]
  rw [Module.results, blocks_toModule, List.flatMap_cons, results_entry, ← behind]
  exact (List.mergeSort_perm _ _).flatMap_right _

/-- The slots of the module are the variables that were met. -/
theorem slots_toModule : F.toModule.slots = F.slots := by
  have none : ∀ b ∈ F.blocks.mergeSort (fun a b => a.label.rank ≤ b.label.rank),
      b.code.filterMap Instr.allocated? = [] := fun b hb =>
    List.filterMap_eq_nil_iff.2 fun i hi =>
      (h.declared_of_mem (List.mem_mergeSort.1 hb) hi).allocated
  rw [Module.slots, blocks_toModule, List.flatMap_cons, allocated_entry,
    List.flatMap_eq_nil_iff.2 none, List.append_nil]

theorem supplied : ∃ supply : Label → List Register, supply .entry = [] ∧
    ∀ b ∈ F.toModule.blocks, b.Supplied supply := by
  obtain ⟨supply, flows⟩ := h.flows
  refine ⟨supply, flows.entry, fun b hb => ?_⟩
  rcases mem_toModule.1 hb with rfl | hb
  · refine ⟨fun {pre i} standing r hr => ?_, List.nil_subset _, fun l hl => ?_⟩
    · have mem : i ∈ F.entry.code :=
        standing.subset (List.mem_append_right _ (List.mem_singleton_self _))
      obtain ⟨x, _, rfl | rfl⟩ := mem_entry.1 mem
      · cases hr
      · cases hr
    · rw [List.mem_singleton.1 hl, (flows.known _ (List.mem_singleton_self _)).2]
      exact List.nil_subset _
  · exact flows.blocks b hb

theorem entry_not_mem : F.entry ∉ F.blocks := by
  intro mem
  have positive := (h.fresh.bounded F.entry.label (List.mem_append_left _
    (map_label_blocks F ▸ List.mem_map_of_mem mem))).1
  exact absurd positive (Nat.lt_irrefl 0)

/-- The slot that an instruction behind the entry touches was made and set to zero in the entry. -/
theorem touched_of_mem (hb : b ∈ F.blocks) {i : Instr} (hi : i ∈ b.code) {x : Text}
    (touches : i.stored? = some x ∨ i.loaded? = some x) {before : List Instr}
    (earlier : F.entry.code ⊆ before) :
    .allocate x ∈ before ∧ .store (.constant 0) x ∈ before := by
  have mem : x ∈ F.slots := (h.declared_of_mem hb hi).touched touches
  exact ⟨earlier (mem_entry.2 ⟨x, mem, .inl rfl⟩), earlier (mem_entry.2 ⟨x, mem, .inr rfl⟩)⟩

/-- A draft that relies on nothing more is the draft of a well-formed module. -/
theorem wellFormed : F.toModule.WellFormed := by
  obtain ⟨supply, entry, all⟩ := h.supplied
  have behind {b : Block} (hb : b ∈ F.toModule.blocks) (other : b.label ≠ .entry) : b ∈ F.blocks :=
    (mem_toModule.1 hb).resolve_left fun same => other (same ▸ rfl)
  constructor
  case labels => exact h.labels
  case labelTexts => exact h.labelTexts
  case targets => exact h.targets
  case results => exact h.results_perm.nodup_iff.2 List.nodup_range
  case reads => exact fun way => way.reads all entry
  case readsAtEnd => exact fun way => way.reads all entry
  case slots =>
    rw [h.slots_toModule]
    exact ⟨h.distinct.1, List.pairwise_map.2 (h.distinct.1.imp fun other same =>
      other (slotName_injective same))⟩
  case entry =>
    rw [h.slots_toModule]
    exact block?_entry F
  case slotFirst =>
    rintro before i x ⟨earlier, b, pre, way, standing, rfl⟩ touches
    have mem : i ∈ b.code := standing.subset (List.mem_append_right _ (List.mem_singleton_self _))
    rcases mem_toModule.1 way.mem with rfl | behind
    · obtain ⟨y, _, rfl | rfl⟩ := mem_entry.1 mem
      · rcases touches with stored | loaded
        · cases stored
        · cases loaded
      · rcases touches with stored | loaded
        · exact List.mem_append_right _ (allocate_mem_of_begins standing stored)
        · cases loaded
    · rcases way.entry_first (block?_entry F) with rfl | first
      · exact absurd behind h.entry_not_mem
      · exact List.mem_append_left _ (h.touched_of_mem behind mem touches first).1
  case zeroFirst =>
    intro before b i x way other mem touches
    rcases way.entry_first (block?_entry F) with rfl | first
    · exact absurd rfl other
    · exact (h.touched_of_mem (behind way.mem other) mem touches first).2
  case routines =>
    refine ⟨h.distinct.2.1, fun b hb i hi f called => ?_⟩
    rcases mem_toModule.1 hb with rfl | hb
    · obtain ⟨x, _, rfl | rfl⟩ := mem_entry.1 hi
      · cases called
      · cases called
    · exact (h.declared_of_mem hb hi).called called
  case strings =>
    refine ⟨h.distinct.2.2, fun b hb i hi => ?_⟩
    rcases mem_toModule.1 hb with rfl | hb
    · obtain ⟨x, _, rfl | rfl⟩ := mem_entry.1 hi
      · exact List.nil_subset _
      · exact List.nil_subset _
    · exact (h.declared_of_mem hb hi).named
  case constants => exact fun _ => Module.stringText_eq _ _

end Allows

end Draft

end Llvm

open Llvm

namespace Program

variable {p : Program} {F : Draft}

/-- The slots of a module are the variables of its program: what is read was bound in front. -/
theorem mem_slots_iff (body : lowerBlock p.body .initial = (.ok (), F)) (x : Text) :
    x ∈ F.slots ↔ x ∈ p.variableNames := by
  have met : meetAll? [] p.mentions = some F.slots := Lowering.Meets.block p.body _ _ _ body
  rw [mem_of_meetAll? met, variableNames, List.mem_map]
  constructor
  · rintro (none | bound)
    · cases none
    · exact ⟨_, bound, rfl⟩
  · rintro ⟨mention, mem, rfl⟩
    refine .inr ?_
    cases mention with
    | bind x => exact mem
    | read loc x =>
      obtain ⟨before, after, split⟩ := List.append_of_mem mem
      rw [split] at met ⊢
      exact List.mem_append_left _ ((bound_of_meetAll? met).resolve_left List.not_mem_nil)

/-- The module of a program is well formed, and each variable of the program has a slot in it. -/
theorem wellFormed_lower {m : Llvm.Module} (lowered : p.lower = .ok m) :
    m.WellFormed ∧ ∀ x, x ∈ m.slots ↔ x ∈ p.variableNames := by
  obtain ⟨F, body, rfl⟩ := lower_eq_ok lowered
  have allows := keeps_block .initial p.body _ _ _ Draft.allows_initial body
  refine ⟨allows.wellFormed, fun x => ?_⟩
  rw [allows.slots_toModule]
  exact mem_slots_iff body x

/-- A choice inside a choice. The subject of the outer one is compared again behind the inner
one. -/
def choices : Text :=
  "algoritmo p
  x <- 3
  segun x hacer
    caso 1:
      segun x hacer
        caso 1: y <- 1
      finsegun
    caso 2: escribir raiz(x), y
  finsegun
finalgoritmo"

theorem wellFormed_lower_choices :
    ∃ p m, ofSource choices = .ok p ∧ p.lower = .ok m ∧
      p.variableNames = ["x", "x", "x", "y", "x", "y"] ∧
      m.WellFormed ∧ ∀ x, x ∈ m.slots ↔ x ∈ p.variableNames := by
  obtain ⟨p, F, compiled, body, named⟩ :
      ∃ p F, ofSource choices = .ok p ∧ lowerBlock p.body .initial = (.ok (), F) ∧
        p.variableNames = ["x", "x", "x", "y", "x", "y"] :=
    exists_draft (by decide +kernel)
  have lowered := lower_of_lowerBlock body
  exact ⟨p, _, compiled, lowered, named, wellFormed_lower lowered⟩

end Program

end Pseudocode
