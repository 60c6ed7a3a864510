import Pseudocode.Proofs.Outcome
import Pseudocode.Text.CharSet

/-!
# Searching in order

Since ranges stand in ascending order, a search that stops at the first range beyond a character
misses none that has the character. So a character is in a set exactly if it lies in one of the
ranges, and a run is found exactly if it is the one that covers the character.
-/

namespace Pseudocode

section Order

variable {low n : Nat} {r : Nat × Nat} {ranges : List (Nat × Nat)}

theorem isAscending_cons : isAscending low (r :: ranges) = true ↔
    low ≤ r.1 ∧ r.1 ≤ r.2 ∧ isAscending (r.2 + 1) ranges = true := by
  rw [isAscending, Bool.and_eq_true, Bool.and_eq_true, decide_eq_true_eq, decide_eq_true_eq,
    and_assoc]

theorem le_of_mem (ascending : isAscending low ranges = true) (mem : r ∈ ranges) : low ≤ r.1 := by
  induction ranges generalizing low with
  | nil => cases mem
  | cons r' ranges ih =>
    obtain ⟨first, wide, rest⟩ := isAscending_cons.1 ascending
    rcases List.mem_cons.1 mem with rfl | mem
    · exact first
    · have beyond := ih rest mem
      omega

end Order

section Search

variable {α : Type} {range : α → Nat × Nat} {low n : Nat} {a b : α} {all : List α}

/-- A search that stops at the first range beyond a code point sees all that begin before it. -/
theorem mem_takeWhile_iff (ascending : isAscending low (all.map range) = true) :
    a ∈ all.takeWhile (fun b => decide ((range b).1 ≤ n)) ↔ a ∈ all ∧ (range a).1 ≤ n := by
  induction all generalizing low with
  | nil => simp
  | cons b all ih =>
    obtain ⟨-, wide, rest⟩ := isAscending_cons.1 ascending
    rw [List.takeWhile_cons]
    by_cases begun : (range b).1 ≤ n
    · rw [if_pos (decide_eq_true begun), List.mem_cons, List.mem_cons, ih rest]
      constructor
      · rintro (rfl | ⟨mem, before⟩)
        · exact ⟨.inl rfl, begun⟩
        · exact ⟨.inr mem, before⟩
      · rintro ⟨rfl | mem, before⟩
        · exact .inl rfl
        · exact .inr ⟨mem, before⟩
    · rw [if_neg (mt of_decide_eq_true begun)]
      refine ⟨fun mem => absurd mem List.not_mem_nil, ?_⟩
      rintro ⟨mem, before⟩
      rcases List.mem_cons.1 mem with rfl | later
      · exact absurd before begun
      · have beyond := le_of_mem rest (List.mem_map_of_mem later)
        omega

/-- A code point lies in one range at most. -/
theorem eq_of_between (ascending : isAscending low (all.map range) = true) (mem : a ∈ all)
    (mem' : b ∈ all) (between : (range a).1 ≤ n ∧ n ≤ (range a).2)
    (between' : (range b).1 ≤ n ∧ n ≤ (range b).2) : a = b := by
  induction all generalizing low with
  | nil => cases mem
  | cons c all ih =>
    obtain ⟨-, -, rest⟩ := isAscending_cons.1 ascending
    rcases List.mem_cons.1 mem with rfl | later
    · rcases List.mem_cons.1 mem' with rfl | later'
      · rfl
      · have beyond := le_of_mem rest (List.mem_map_of_mem later')
        omega
    · rcases List.mem_cons.1 mem' with rfl | later'
      · have beyond := le_of_mem rest (List.mem_map_of_mem later)
        omega
      · exact ih rest later later'

end Search

/-- A character is in a set exactly if it lies in one of the ranges. -/
theorem CharSet.contains_iff {s : CharSet} {c : Char} :
    s.contains c = true ↔ ∃ r ∈ s.ranges, r.1 ≤ c.toNat ∧ c.toNat ≤ r.2 := by
  have ascending : isAscending 0 (s.ranges.map id) = true := by
    rw [List.map_id]
    exact s.ascending
  rw [contains, List.any_eq_true]
  constructor
  · rintro ⟨r, mem, before⟩
    obtain ⟨mem, begun⟩ := (mem_takeWhile_iff ascending).1 mem
    exact ⟨r, mem, begun, of_decide_eq_true before⟩
  · rintro ⟨r, mem, begun, before⟩
    exact ⟨r, (mem_takeWhile_iff ascending).2 ⟨mem, begun⟩, decide_eq_true before⟩

theorem CharRun.covers_iff {r : CharRun} {n : Nat} :
    r.covers n = true ↔ r.first ≤ n ∧ n ≤ r.last ∧ (n - r.first) % r.step = 0 := by
  rw [covers, Bool.and_eq_true, Bool.and_eq_true, decide_eq_true_eq, decide_eq_true_eq, beq_iff_eq,
    and_assoc]

/-- A run is found exactly if it is one of the mapping's and covers the character. -/
theorem CharMap.run?_eq_some_iff {m : CharMap} {c : Char} {r : CharRun} :
    m.run? c = some r ↔ r ∈ m.runs ∧ r.covers c.toNat = true := by
  have between {r : CharRun} (covers : r.covers c.toNat = true) :
      r.range.1 ≤ c.toNat ∧ c.toNat ≤ r.range.2 :=
    ⟨(CharRun.covers_iff.1 covers).1, (CharRun.covers_iff.1 covers).2.1⟩
  have seen {r : CharRun} := mem_takeWhile_iff (a := r) (n := c.toNat) m.ascending
  rw [run?, List.find?_eq_some_iff_of_unique]
  · constructor
    · rintro ⟨mem, covers⟩
      exact ⟨(seen.1 mem).1, covers⟩
    · rintro ⟨mem, covers⟩
      exact ⟨seen.2 ⟨mem, (between covers).1⟩, covers⟩
  · intro r mem r' mem' covers covers'
    exact eq_of_between m.ascending (seen.1 mem).1 (seen.1 mem').1 (between covers)
      (between covers')

end Pseudocode
