import Pseudocode.Proofs.Text.Lines
import Pseudocode.Proofs.Token.Breaks

/-!
# The places of a source

A place is counted from the characters in front of it. Where the character behind these is no line
break, the place lies in a line of the source and in front of the end of this line. Lexemes start
with such characters, and so does what the scanner stops at: so the places of tokens and of lexical
errors are of this kind.
-/

namespace Pseudocode

namespace Location

/-- As long as there is no line break, columns are counted on. -/
theorem foldl_advance {cs : List Char} (noBreak : '\n' ∉ cs) (l : Location) :
    cs.foldl advance l = ⟨l.line, l.column + cs.length⟩ := by
  induction cs generalizing l with
  | nil => simp
  | cons c cs ih =>
    have other : ¬ c = '\n' := fun same => noBreak (same ▸ List.mem_cons_self)
    rw [List.foldl_cons, ih (fun mem => noBreak (List.mem_cons_of_mem _ mem)), advance,
      if_neg other]
    simp only [List.length_cons, mk.injEq, true_and]
    omega

theorem behind_of_no_newline {cs : List Char} (noBreak : '\n' ∉ cs) :
    behind cs = ⟨1, cs.length + 1⟩ := by
  rw [← List.nil_append cs, behind_append, foldl_advance noBreak]
  simp [behind]
  omega

/-- Behind a line break lines are counted on, and columns from the start. -/
theorem behind_append_newline {line : List Char} (noBreak : '\n' ∉ line) (cs : List Char) :
    behind (line ++ '\n' :: cs) = (behind cs).down 1 := by
  have atBreak : (behind line).advance '\n' = (behind []).down 1 := by
    rw [behind_of_no_newline noBreak]
    rfl
  rw [behind_append, List.foldl_cons, atBreak, foldl_advance_down, ← behind_append, List.nil_append]

end Location

namespace Text

/-- The place of a character that is no line break. -/
def HasPlace (src : Text) (l : Location) : Prop :=
  ∃ done c rest, src.chars = done ++ c :: rest ∧ c ≠ '\n' ∧ l = .behind done

/-- Such a place lies in a line, in front of its end. -/
theorem HasPlace.exists_line {src : Text} {l : Location} (place : src.HasPlace l) :
    ∃ (n k : Nat) (line : Text), l = ⟨n + 1, k + 1⟩ ∧ src.lines[n]? = some line ∧
      k < line.length := by
  obtain ⟨done, c, rest, split, noBreak, rfl⟩ := place
  -- The recursion is that of the lines: what is not in the first one is in those behind it.
  induction size : src.bytes.length using Nat.strongRecOn generalizing src done with
  | ind bytes ih =>
  cases first : splitLine? src.bytes with
  | none =>
    have noLine : '\n' ∉ done := fun mem =>
      newline_not_mem_chars first (split ▸ List.mem_append_left _ mem)
    refine ⟨0, done.length, src, Location.behind_of_no_newline noLine, ?_, ?_⟩
    · rw [lines_of_no_line first]
      rfl
    · rw [length, split]
      simp
  | some r =>
    obtain ⟨line, after⟩ := r
    obtain ⟨chars, noLine⟩ := chars_of_line first
    rw [split] at chars
    rw [lines_of_line first]
    rcases List.append_eq_append_iff.1 chars with ⟨more, own, later⟩ | ⟨more, own, later⟩
    · cases more with
      | nil => exact absurd (List.cons.inj later).1 noBreak
      | cons d more =>
        have inside : '\n' ∉ done := fun mem => noLine (own ▸ List.mem_append_left _ mem)
        refine ⟨0, done.length, ⟨line⟩, Location.behind_of_no_newline inside, rfl, ?_⟩
        rw [length, own]
        simp
    · cases more with
      | nil => exact absurd (List.cons.inj later).1.symm noBreak
      | cons d more =>
        obtain rfl : '\n' = d := (List.cons.inj later).1
        have shorter : after.length < bytes := by
          rw [← size, (splitLine?_eq_some first).1, List.length_append, List.length_cons]
          omega
        obtain ⟨n, k, found, place, there, inside⟩ := ih _ shorter more (List.cons.inj later).2 rfl
        refine ⟨n + 1, k, found, ?_, there, inside⟩
        rw [own, Location.behind_append_newline noLine, place]
        rfl

end Text

/-- No lexeme starts with a line break. -/
theorem Token.Spelt.exists_head {kind : Token.Kind} {value lexeme : List Char}
    (spelt : Spelt kind value lexeme) : ∃ c rest, lexeme = c :: rest ∧ c ≠ '\n' := by
  have word {cs : List Char} (isWord : IsWord cs) : ∃ c rest, cs = c :: rest ∧ c ≠ '\n' := by
    obtain ⟨c, rest, split, letter, -⟩ := isWord
    refine ⟨c, rest, split, ?_⟩
    rintro rfl
    exact absurd (isBlank_of_isLetter letter) (by decide)
  cases spelt with
  | number some all =>
    obtain ⟨c, rest, rfl⟩ := List.exists_cons_of_ne_nil some
    refine ⟨c, rest, rfl, ?_⟩
    rintro rfl
    exact absurd (all _ List.mem_cons_self) (by decide)
  | string => exact ⟨_, _, rfl, by decide⟩
  | truth isWord _ | keyword isWord _ | identifier isWord _ _ => exact word isWord
  | assignment => exact ⟨_, _, rfl, by decide⟩
  | operator mem =>
    have each : ∀ symbol ∈ operators, symbol.head?.any (· != '\n') = true := by decide
    obtain ⟨c, head, other⟩ := (Option.any_eq_true _ _).1 (each _ mem)
    obtain ⟨rest, rfl⟩ := List.head?_eq_some_iff.1 head
    exact ⟨c, rest, rfl, by simpa using other⟩
  | @mark c kind mem =>
    have each : ∀ r ∈ marks, r.1 ≠ '\n' := by decide
    exact ⟨c, [], rfl, each _ mem⟩

/-- What the scanner stops at is no line break. -/
theorem Stuck.exists_head {cause : LexCause} {rest : List Char} (stuck : Stuck cause rest) :
    ∃ c more, rest = c :: more ∧ c ≠ '\n' := by
  cases stuck with
  | unterminated => exact ⟨_, _, rfl, by decide⟩
  | unexpected notBlank =>
    refine ⟨_, _, rfl, ?_⟩
    rintro rfl
    exact absurd notBlank (by decide)

/-- Every token of a tiled part stands where a lexeme starts. -/
theorem Tiled.exists_places {done rest : List Char} {ts : List Token}
    (tiled : Tiled done ts rest) : ∀ t ∈ ts, ∃ first c more, done ++ rest = first ++ c :: more ∧
      c ≠ '\n' ∧ t.loc = some (.behind first) := by
  induction tiled with
  | start => exact List.forall_mem_nil _
  | blank _ _ ih =>
    rw [List.append_assoc]
    exact ih
  | comment _ _ _ ih =>
    rw [List.append_assoc]
    exact ih
  | @token done value lexeme rest ts kind _ spelt _ ih =>
    rw [List.append_assoc]
    refine List.forall_mem_append.2 ⟨ih, List.forall_mem_singleton.2 ?_⟩
    obtain ⟨c, more, rfl, other⟩ := spelt.exists_head
    exact ⟨done, c, more ++ rest, rfl, other, rfl⟩

/-- The tokens of a source have places in it. -/
theorem exists_hasPlace_of_scan {src : Text} {ts : List Token} (scanned : scan src = .ok ts)
    {t : Token} (mem : t ∈ ts) : ∃ l, t.loc = some l ∧ src.HasPlace l := by
  have tiled := scan_eq_ok_iff.1 scanned
  obtain ⟨done, c, rest, split, other, place⟩ := tiled.exists_places t mem
  rw [List.append_nil] at split
  exact ⟨_, place, done, c, rest, split, other, rfl⟩

end Pseudocode
