import Mathlib
import Pseudocode.Proofs.Number.Literal
import Pseudocode.Proofs.Value.Printing

/-!
# Which typed lines are numbers

A typed line passes two tests: a filter that looks only at which characters there are, and the
reader of numerals, which accepts much more than decimals. What passes both is exactly a decimal
literal with at most one sign that is not too large, or a word for an infinity with at most one
sign. The filter keeps out the underscores, the marks of a base and the other words; the reader
keeps out everything that has decimal characters in the wrong order.
-/

namespace Pseudocode

namespace Value

open Numeral

/-- What a line has to spell between its blanks to be a number, and which number that is. -/
inductive Spells : List Char → Number → Prop where
  | infinity (s : Sign) : Spells (s.chars ++ "Infinity".toList) (Number.infinity s.isMinus)
  | decimal (s : Sign) (l : Literal) (bounded : l.value < Number.overflowBound) :
      Spells (s.chars ++ l.chars) (l.number s.isMinus)

section Filter

variable {c : Char} {cs : List Char}

/-- No decimal character is an underscore, the mark of a base or the first letter of a word. -/
theorem free_of_mem_decimalChars (mem : c ∈ decimalChars) :
    c ≠ '_' ∧ lowerAscii c ≠ 'x' ∧ lowerAscii c ≠ 'n' ∧ lowerAscii c ≠ 'i' := by
  have all : decimalChars.all (fun c => decide (c ≠ '_' ∧ lowerAscii c ≠ 'x' ∧
      lowerAscii c ≠ 'n' ∧ lowerAscii c ≠ 'i')) = true := by
    decide +kernel
  exact of_decide_eq_true (List.all_eq_true.1 all c mem)

theorem mem_decimalChars_of_isPlain (plain : IsPlain c) : c ∈ decimalChars :=
  List.contains_iff_mem.1 (Number.mem_decimalChars plain)

/-- The signs and the letters of exponents are decimal characters. -/
theorem mem_decimalChars_of_eq (mark : c = '+' ∨ c = '-' ∨ c = 'e' ∨ c = 'E') :
    c ∈ decimalChars := by
  rcases mark with rfl | rfl | rfl | rfl
  · exact List.contains_iff_mem.1 (by decide +kernel)
  · exact List.contains_iff_mem.1 (by decide +kernel)
  · exact List.contains_iff_mem.1 (by decide +kernel)
  · exact List.contains_iff_mem.1 (by decide +kernel)

/-- Decimal characters are read as decimal digits behind a sign or not at all. -/
theorem parse?_of_decimalChars (decimal : ∀ c ∈ cs, c ∈ decimalChars) :
    parse? cs = decimal? (splitSign cs).1 (splitSign cs).2 := by
  obtain ⟨⟨negative, body⟩, split⟩ : ∃ r, splitSign cs = r := ⟨_, rfl⟩
  obtain ⟨s, rfl, -⟩ := exists_sign split
  have inner : ∀ c ∈ body, c ∈ decimalChars :=
    fun c mem => decimal c (List.mem_append_right _ mem)
  have notWord {cs word : List Char} {d : Char} (decimal : ∀ c ∈ cs, c ∈ decimalChars)
      (letter : d = 'n' ∨ d = 'i') : (cs.map lowerAscii == d :: word) = false := by
    rw [beq_eq_false_iff_ne]
    intro same
    obtain ⟨c, mem, small⟩ := List.mem_map.1 (same ▸ List.mem_cons_self : d ∈ cs.map lowerAscii)
    obtain ⟨-, -, noN, noI⟩ := free_of_mem_decimalChars (decimal c mem)
    rcases letter with rfl | rfl
    · exact noN small
    · exact noI small
  have notNan : ((s.chars ++ body).map lowerAscii == "nan".toList) = false :=
    notWord decimal (.inl rfl)
  have notInf : (body.map lowerAscii == "inf".toList) = false := notWord inner (.inr rfl)
  have notInfinity : (body.map lowerAscii == "infinity".toList) = false :=
    notWord inner (.inr rfl)
  rw [parse?, notNan, if_neg Bool.false_ne_true, split]
  dsimp only
  rw [notInf, notInfinity, Bool.or_self, if_neg Bool.false_ne_true]
  refine digits?_eq_decimal? fun c mem => ?_
  obtain ⟨noUnderscore, noMark, -, -⟩ := free_of_mem_decimalChars (inner c mem)
  exact ⟨noUnderscore, noMark⟩

end Filter

section Literals

variable {cs : List Char} {n : Number}

/-- The characters of a sign and a literal are decimal characters, and one of them is a digit. -/
theorem isDecimal_literal (s : Sign) (l : Literal) :
    (∀ c ∈ s.chars ++ l.chars, c ∈ decimalChars) ∧ ∃ c ∈ s.chars ++ l.chars, isDigit c = true := by
  have sign (s : Sign) : ∀ c ∈ s.chars, c ∈ decimalChars := by
    cases s with
    | none => exact List.forall_mem_nil _
    | plus => exact List.forall_mem_singleton.2 (mem_decimalChars_of_eq (.inl rfl))
    | minus => exact List.forall_mem_singleton.2 (mem_decimalChars_of_eq (.inr (.inl rfl)))
  have digit {c : Char} (digit : isDigit c = true) : c ∈ decimalChars :=
    mem_decimalChars_of_isPlain (.inl digit)
  obtain ⟨whole, fraction, power, digits, nonempty⟩ := l
  obtain ⟨front, back⟩ := List.forall_mem_append.1 digits
  constructor
  · rw [Literal.chars]
    refine List.forall_mem_append.2 ⟨sign s, List.forall_mem_append.2
      ⟨fun c mem => digit (front c mem), List.forall_mem_append.2 ⟨?_, ?_⟩⟩⟩
    · cases fraction with
      | none => exact List.forall_mem_nil _
      | some tail =>
        exact List.forall_mem_cons.2
          ⟨mem_decimalChars_of_isPlain (.inr rfl), fun c mem => digit (back c mem)⟩
    · cases power with
      | none => exact List.forall_mem_nil _
      | some p =>
        exact List.forall_mem_cons.2 ⟨mem_decimalChars_of_eq (.inr (.inr p.isLetter)),
          List.forall_mem_append.2 ⟨sign p.sign, fun c mem => digit (p.isDigits c mem)⟩⟩
  · obtain ⟨c, mem⟩ := List.exists_mem_of_ne_nil _ nonempty
    refine ⟨c, ?_, digits c mem⟩
    rw [Literal.chars, List.mem_append, List.mem_append, List.mem_append]
    rcases List.mem_append.1 mem with front | back
    · exact .inr (.inl front)
    · cases fraction with
      | none => cases back
      | some tail => exact .inr (.inr (.inl (List.mem_cons_of_mem _ back)))

/-- What is made of decimal characters is read as a number exactly if it is a literal with at most
one sign that is not too large. -/
theorem ofChars?_of_decimalChars (decimal : ∀ c ∈ cs, c ∈ decimalChars) :
    Number.ofChars? cs = some n ↔ ∃ (s : Sign) (l : Literal), cs = s.chars ++ l.chars ∧
      l.value < Number.overflowBound ∧ n = l.number s.isMinus := by
  rw [Number.ofChars?, parse?_of_decimalChars decimal]
  constructor
  · intro read
    obtain ⟨⟨negative, body⟩, split⟩ : ∃ r, splitSign cs = r := ⟨_, rfl⟩
    obtain ⟨s, rfl, rfl⟩ := exists_sign split
    obtain ⟨numeral, found, value⟩ := Option.bind_eq_some_iff.1 read
    rw [split] at found
    obtain ⟨l, rfl, rfl⟩ := decimal?_eq_some_iff.1 found
    rw [value?_numeral] at value
    split at value
    · next bounded => exact ⟨s, l, rfl, bounded, (Option.some.inj value).symm⟩
    · cases value
  · rintro ⟨s, l, rfl, bounded, rfl⟩
    rw [splitSign_append s l.head_chars, decimal?_chars]
    exact (value?_numeral l s.isMinus).trans (if_pos bounded)

/-- Nothing is read behind two signs. -/
theorem parse?_of_signs {c d : Char} (first : c = '+' ∨ c = '-') (second : d = '+' ∨ d = '-') :
    parse? (c :: d :: cs) = none := by
  have noDigit (negative : Bool) (cs : List Char) : decimal? negative (d :: cs) = none := by
    rcases second with rfl | rfl
    · rfl
    · rfl
  have unread (negative : Bool) : digits? negative (d :: cs) = none := by
    have kept : (d :: cs).filter (· != '_') = d :: cs.filter (· != '_') :=
      List.filter_cons_of_pos (by rcases second with rfl | rfl <;> rfl)
    have branch : digits? negative (d :: cs) = if underscoresSeparate isDigit false (d :: cs) then
        decimal? negative ((d :: cs).filter (· != '_')) else none := by
      rcases second with rfl | rfl
      · rfl
      · rfl
    rw [branch, kept, noDigit, ite_self]
  have whole : ∃ negative, parse? (c :: d :: cs) = digits? negative (d :: cs) := by
    rcases first with rfl | rfl
    · refine ⟨false, ?_⟩
      rcases second with rfl | rfl
      · rfl
      · rfl
    · refine ⟨true, ?_⟩
      rcases second with rfl | rfl
      · rfl
      · rfl
  obtain ⟨negative, same⟩ := whole
  rw [same, unread]

/-- Of the words for an infinity with signs in front of them, those with at most one are read. -/
theorem ofChars?_of_infinity (word : cs.dropWhile (fun c => c == '+' || c == '-') =
    "Infinity".toList) : Number.ofChars? cs = some n ↔
      ∃ s : Sign, cs = s.chars ++ "Infinity".toList ∧ n = Number.infinity s.isMinus := by
  have read (s : Sign) : Number.ofChars? (s.chars ++ "Infinity".toList) =
      some (Number.infinity s.isMinus) := by
    cases s with
    | none | plus | minus => rfl
  constructor
  · intro found
    have signs : ∀ c ∈ cs.takeWhile (fun c => c == '+' || c == '-'), c = '+' ∨ c = '-' := by
      intro c mem
      have passed := List.mem_takeWhile_imp mem
      rwa [Bool.or_eq_true, beq_iff_eq, beq_iff_eq] at passed
    have parts : cs.takeWhile (fun c => c == '+' || c == '-') ++ "Infinity".toList = cs := by
      rw [← word]
      exact List.takeWhile_append_dropWhile
    generalize cs.takeWhile (fun c => c == '+' || c == '-') = front at signs parts
    subst parts
    have one (s : Sign) (same : front = s.chars) : ∃ s : Sign, front ++ "Infinity".toList =
        s.chars ++ "Infinity".toList ∧ n = Number.infinity s.isMinus := by
      subst same
      rw [read s] at found
      exact ⟨s, rfl, (Option.some.inj found).symm⟩
    cases front with
    | nil => exact one .none rfl
    | cons c front =>
      have first := signs c List.mem_cons_self
      cases front with
      | nil =>
        rcases first with rfl | rfl
        · exact one .plus rfl
        · exact one .minus rfl
      | cons d front =>
        have second := signs d (List.mem_cons_of_mem _ List.mem_cons_self)
        rw [Number.ofChars?, List.cons_append, List.cons_append,
          parse?_of_signs first second] at found
        cases found
  · rintro ⟨s, rfl, rfl⟩
    exact read s

end Literals

section Lines

variable {cs : List Char} {n : Number}

theorem Spells.isNaN (spells : Spells cs n) : n.isNaN = false := by
  cases spells with
  | infinity s =>
    cases s with
    | none | plus | minus => decide +kernel
  | decimal s l bounded =>
    have finite := Number.decimalBits_lt_iff.2 bounded
    refine Number.isNaN_of_finite ?_
    rw [Literal.number, Number.isFiniteNumber, Number.magnitudeBits_ofMagnitude finite]
    exact decide_eq_true finite

/-- What passes the filter and is read is what spells a number. -/
theorem spells_iff : Spells cs n ↔ isDecimal cs = true ∧ Number.ofChars? cs = some n := by
  constructor
  · intro spells
    cases spells with
    | infinity s =>
      have word : (s.chars ++ "Infinity".toList).dropWhile (fun c => c == '+' || c == '-') =
          "Infinity".toList := by
        cases s with
        | none | plus | minus => rfl
      refine ⟨?_, (ofChars?_of_infinity word).2 ⟨s, rfl, rfl⟩⟩
      rw [isDecimal, word]
      rfl
    | decimal s l bounded =>
      obtain ⟨decimal, digit⟩ := isDecimal_literal s l
      refine ⟨?_, (ofChars?_of_decimalChars decimal).2 ⟨s, l, rfl, bounded, rfl⟩⟩
      rw [isDecimal, Bool.or_eq_true, Bool.and_eq_true, List.all_eq_true, List.any_eq_true]
      exact .inr ⟨fun c mem => List.contains_iff_mem.2 (decimal c mem), digit⟩
  · rintro ⟨filtered, read⟩
    rw [isDecimal, Bool.or_eq_true, Bool.and_eq_true, beq_iff_eq] at filtered
    rcases filtered with word | ⟨decimal, -⟩
    -- The filter strips any number of signs in front of the word; reading allows only one.
    · obtain ⟨s, rfl, rfl⟩ := (ofChars?_of_infinity word).1 read
      exact .infinity s
    · have decimal : ∀ c ∈ cs, c ∈ decimalChars :=
        fun c mem => List.contains_iff_mem.1 (List.all_eq_true.1 decimal c mem)
      obtain ⟨s, l, rfl, bounded, rfl⟩ := (ofChars?_of_decimalChars decimal).1 read
      exact .decimal s l bounded

/-- **A typed line is a number exactly if it spells one between its blanks**: a decimal literal or
the word for the infinity, with at most one sign, and not too large. Any other line is the text that
it is, with its blanks. -/
theorem ofInput_iff_spells (line : Text) :
    (∀ n, ofInput line = .number n ↔ Spells (trimWhile isBlank line.chars) n) ∧
      (ofInput line = .text line ↔ ∀ n, ¬ Spells (trimWhile isBlank line.chars) n) := by
  have number {n : Number} (spells : Spells (trimWhile isBlank line.chars) n) :
      ofInput line = .number n := by
    obtain ⟨filtered, read⟩ := spells_iff.1 spells
    simp only [ofInput, filtered, read, spells.isNaN, if_true, Bool.false_eq_true, if_false]
  have text (none : ∀ n, ¬ Spells (trimWhile isBlank line.chars) n) :
      ofInput line = .text line := by
    simp only [ofInput]
    split
    · next filtered =>
      split
      · next n read => exact absurd (spells_iff.2 ⟨filtered, read⟩) (none n)
      · rfl
    · rfl
  refine ⟨fun n => ⟨fun typed => ?_, number⟩, fun typed n spells => ?_, text⟩
  · by_cases some : ∃ m, Spells (trimWhile isBlank line.chars) m
    · obtain ⟨m, spells⟩ := some
      rw [number spells] at typed
      cases typed
      exact spells
    · rw [text (not_exists.1 some)] at typed
      cases typed
  · rw [number spells] at typed
    cases typed

/-- One sign in front of the word for the infinity is read, and two are a text. -/
theorem ofInput_iff_spells_infinity :
    ofInput " -Infinity" = .number (Number.infinity true) ∧
      ofInput "+-Infinity " = .text "+-Infinity " := by
  refine ⟨((ofInput_iff_spells " -Infinity").1 _).2 ?_,
    (ofInput_iff_spells "+-Infinity ").2.2 fun n spells => ?_⟩
  · have word : trimWhile isBlank (Text.ofString " -Infinity").chars =
        Sign.minus.chars ++ "Infinity".toList := by
      decide +kernel
    rw [word]
    exact .infinity .minus
  · have unread :
        Number.ofChars? (trimWhile isBlank (Text.ofString "+-Infinity ").chars) = none := by
      decide +kernel
    have read := (spells_iff.1 spells).2
    rw [unread] at read
    cases read

example : ofInput " +15.e2\t" = .number 1500 := by decide +kernel

example : ofInput " 0x10" = .text " 0x10" ∧ ofInput "--1" = .text "--1" := by decide +kernel

end Lines

end Value

end Pseudocode
