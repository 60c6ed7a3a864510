import Pseudocode.Channel
import Pseudocode.Proofs.Text.Ascii

/-!
# The lines of a text

The first line of some bytes is what stands in front of the first newline, and the further lines are
those of what stands behind it. A newline byte stands for the newline character and for nothing
else, so the characters of a text are divided into lines at the same places as its bytes.
-/

namespace Pseudocode

section Bytes

variable {bytes line after : List UInt8}

theorem splitLine?_eq_some (h : splitLine? bytes = some (line, after)) :
    bytes = line ++ 10 :: after ∧ 10 ∉ line := by
  induction bytes generalizing line with
  | nil => cases h
  | cons b rest ih =>
    simp only [splitLine?] at h
    split at h
    · next newline =>
      cases h
      rw [newline]
      exact ⟨rfl, List.not_mem_nil⟩
    · next other =>
      obtain ⟨⟨line', after'⟩, split, same⟩ := Option.map_eq_some_iff.1 h
      cases same
      obtain ⟨whole, none⟩ := ih split
      rw [whole, List.mem_cons, not_or]
      exact ⟨rfl, Ne.symm other, none⟩

theorem splitLine?_eq_none (h : splitLine? bytes = none) : 10 ∉ bytes := by
  induction bytes with
  | nil => exact List.not_mem_nil
  | cons b rest ih =>
    simp only [splitLine?] at h
    split at h
    · cases h
    · next other =>
      rw [List.mem_cons, not_or]
      exact ⟨Ne.symm other, ih (Option.map_eq_none_iff.1 h)⟩

theorem splitBytes_ne_nil : Text.splitBytes 10 bytes ≠ [] := by
  cases bytes with
  | nil => simp [Text.splitBytes]
  | cons b rest =>
    rw [Text.splitBytes]
    split
    · simp
    · split
      · simp
      · simp

theorem splitBytes_of_line (split : splitLine? bytes = some (line, after)) :
    Text.splitBytes 10 bytes = line :: Text.splitBytes 10 after := by
  induction bytes generalizing line with
  | nil => cases split
  | cons b rest ih =>
    rw [splitLine?] at split
    rw [Text.splitBytes]
    by_cases newline : b = 10
    · rw [if_pos newline] at split ⊢
      cases split
      rfl
    · rw [if_neg newline] at split ⊢
      obtain ⟨r, found, same⟩ := Option.map_eq_some_iff.1 split
      cases same
      rw [ih found]

theorem splitBytes_of_no_line (none : splitLine? bytes = none) :
    Text.splitBytes 10 bytes = [bytes] := by
  induction bytes with
  | nil => rfl
  | cons b rest ih =>
    rw [splitLine?] at none
    rw [Text.splitBytes]
    by_cases newline : b = 10
    · rw [if_pos newline] at none
      cases none
    · rw [if_neg newline] at none ⊢
      rw [ih (Option.map_eq_none_iff.1 none)]

end Bytes

/-- A newline is only spelt by its own byte. -/
theorem Utf8.newline_mem {bytes : List UInt8} {skip : Nat}
    (mem : '\n' ∈ decodeAfter skip bytes) : 10 ∈ bytes := by
  induction bytes generalizing skip with
  | nil =>
    rw [decodeAfter.eq_def] at mem
    cases mem
  | cons a rest ih =>
    cases skip with
    | succ skip => exact List.mem_cons_of_mem _ (ih mem)
    | zero =>
      rw [decodeAfter] at mem
      rcases List.mem_cons.1 mem with own | later
      · obtain ⟨small, same, -⟩ := Text.first_eq_mark (by decide) (by decide)
          (Prod.ext own.symm rfl : first a rest = ('\n', (first a rest).2))
        rw [Ascii.char_inj (b := 10) small (by decide) same]
        exact List.mem_cons_self
      · exact List.mem_cons_of_mem _ (ih later)

namespace Text

variable {t : Text} {line after : List UInt8}

theorem lines_of_line (split : splitLine? t.bytes = some (line, after)) :
    t.lines = ⟨line⟩ :: lines ⟨after⟩ := by
  rw [lines, Text.split, splitBytes_of_line split, List.map_cons]
  rfl

theorem lines_of_no_line (none : splitLine? t.bytes = none) : t.lines = [t] := by
  rw [lines, Text.split, splitBytes_of_no_line none]
  rfl

/-- The characters of a text are those of its first line, a newline, and those of the rest. -/
theorem chars_of_line (split : splitLine? t.bytes = some (line, after)) :
    t.chars = (⟨line⟩ : Text).chars ++ '\n' :: (⟨after⟩ : Text).chars ∧
      '\n' ∉ (⟨line⟩ : Text).chars := by
  obtain ⟨whole, none⟩ := splitLine?_eq_some split
  refine ⟨?_, fun mem => none (Utf8.newline_mem mem)⟩
  rw [chars, whole]
  exact Utf8.decodeAfter_append_ascii (by decide) line after (Nat.zero_le _)

theorem newline_not_mem_chars (none : splitLine? t.bytes = none) : '\n' ∉ t.chars :=
  fun mem => splitLine?_eq_none none (Utf8.newline_mem mem)

end Text

end Pseudocode
