import Pseudocode.Diagnostic.Basic
import Pseudocode.Proofs.Text.Lines

/-!
# What an excerpt shows

An excerpt is cut out of the lines of the source: the line that is meant, and its neighbours where
there are any. The caret stands under the column behind as many blanks as there are columns in front
of it, also where the line is shorter than that. Whatever the place is, there is a line to show.
-/

namespace Pseudocode

namespace Excerpt

/-- A heading that names a place, the line that is meant with its neighbours, each with its number,
and a caret behind some blanks. -/
def layout (heading summary : Text) (before : List Text) (this : Text) (after : List Text)
    (blanks : List Char) : Text :=
  let line := before.length + 1
  heading ++ " at " ++ Text.ofNat line ++ ":" ++ Text.ofNat (blanks.length + 1) ++ ": " ++
    summary ++ "\n\n" ++ before.getLast?.elim Text.empty (numbered (line - 1)) ++ numbered line this ++
    "     | " ++ Text.ofChars blanks ++ "^\n" ++ after.head?.elim Text.empty (numbered (line + 1))

/-- A text shows a line and a column of a source: the line is one of the source, and the caret
stands behind a blank for every column in front, which is a tab where the line has one. -/
def Shows (src heading summary : Text) (line column : Nat) (shown : Text) : Prop :=
  ∃ before this after blanks,
    src.lines = before ++ this :: after ∧ before.length + 1 = line ∧ blanks.length + 1 = column ∧
    (∀ i < blanks.length, blanks[i]? = some (if this.chars[i]? = some '\t' then '\t' else ' ')) ∧
    shown = layout heading summary before this after blanks

theorem length_caretPad (cs : List Char) (width : Nat) :
    (caretPad cs width).length = width := by
  rw [caretPad, List.length_append, List.length_map, List.length_take, List.length_replicate]
  omega

theorem getElem?_caretPad (cs : List Char) {width i : Nat} (inside : i < width) :
    (caretPad cs width)[i]? = some (if cs[i]? = some '\t' then '\t' else ' ') := by
  rw [caretPad]
  by_cases within : i < cs.length
  · have taken : i < (cs.take width).length := by
      rw [List.length_take]
      omega
    rw [List.getElem?_append_left (by rwa [List.length_map]), List.getElem?_map,
      List.getElem?_take_of_lt inside, List.getElem?_eq_getElem within, Option.map_some]
    simp only [Option.some.injEq]
  · have beyond : cs.length ≤ i := Nat.le_of_not_lt within
    rw [List.take_of_length_le (by omega), List.getElem?_append_right (by rwa [List.length_map]),
      List.getElem?_replicate, List.getElem?_eq_none beyond, List.length_map]
    rw [if_pos (by omega)]
    rfl

/-- What is shown of a source that is cut at the line that is meant. -/
theorem render_of_split {src : Text} {before after : List Text} {this : Text}
    (split : src.lines = before ++ this :: after) (heading : Text) {l : Location} (summary : Text)
    (place : clampLine src.lines.length l.line = before.length + 1) :
    render src heading l summary = layout heading summary before this after
      (caretPad this.chars (max l.column.toNat 1 - 1)) := by
  have column : max l.column.toNat 1 - 1 + 1 = max l.column.toNat 1 := by omega
  have behind : src.lines[before.length + 1]? = after.head? := by
    rw [split, List.getElem?_append_right (Nat.le_add_right _ 1), Nat.add_sub_cancel_left,
      List.getElem?_cons_succ, List.head?_eq_getElem?]
  have last : before.length + 1 < src.lines.length ↔ after ≠ [] := by
    rw [split, List.length_append, List.length_cons, ← List.length_pos_iff]
    omega
  simp only [render, layout, place, length_caretPad, column, Nat.add_sub_cancel, behind, last]
  rw [split]
  rcases List.eq_nil_or_concat before with rfl | ⟨first, previous, rfl⟩
  · cases after with
    | _ => simp
  · cases after with
    | _ => simp

/-- There is a line with the number that a line number is moved to. -/
theorem exists_split_clampLine {lines : List Text} (some : lines ≠ []) (line : Int) :
    ∃ before this after, lines = before ++ this :: after ∧
      clampLine lines.length line = before.length + 1 := by
  have positive := List.length_pos_iff.2 some
  have inside : clampLine lines.length line - 1 < lines.length := by
    rw [clampLine]
    omega
  refine ⟨lines.take (clampLine lines.length line - 1), lines[clampLine lines.length line - 1],
    lines.drop (clampLine lines.length line - 1 + 1), ?_, ?_⟩
  · rw [← List.drop_eq_getElem_cons inside, List.take_append_drop]
  · rw [List.length_take, clampLine] at *
    omega

/-- **An excerpt has a line to show, whatever the place.** It is the nearest line to the one that is
meant, and the caret stands under the column that is meant, or under the first one. -/
theorem render_shows (src heading : Text) (l : Location) (summary : Text) :
    ∃ line column : Nat, (line : Int) = max 1 (min l.line src.lines.length) ∧
      (column : Int) = max 1 l.column ∧
      Shows src heading summary line column (render src heading l summary) := by
  have some : src.lines ≠ [] := by
    rw [Text.lines, Text.split, ne_eq, List.map_eq_nil_iff]
    exact splitBytes_ne_nil
  have positive := List.length_pos_iff.2 some
  obtain ⟨before, this, after, split, place⟩ := exists_split_clampLine some l.line
  refine ⟨before.length + 1, max l.column.toNat 1, ?_, by omega, before, this, after,
    caretPad this.chars (max l.column.toNat 1 - 1), split, rfl, ?_, ?_, ?_⟩
  · rw [← place, clampLine]
    omega
  · rw [length_caretPad]
    omega
  · intro i inside
    rw [length_caretPad] at inside
    exact getElem?_caretPad this.chars inside
  · exact render_of_split split heading summary place

/-- A place in a line of the source is shown as it is. -/
theorem render_shows_of_line {src : Text} {n : Nat} (among : n < src.lines.length) (heading : Text)
    (k : Nat) (summary : Text) :
    Shows src heading summary (n + 1) (k + 1) (render src heading ⟨n + 1, k + 1⟩ summary) := by
  obtain ⟨line, column, sameLine, sameColumn, shows⟩ :=
    render_shows src heading ⟨n + 1, k + 1⟩ summary
  dsimp only at sameLine sameColumn
  obtain rfl : line = n + 1 := by omega
  obtain rfl : column = k + 1 := by omega
  exact shows

end Excerpt

end Pseudocode
