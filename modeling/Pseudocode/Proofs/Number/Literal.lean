import Mathlib
import Pseudocode.Proofs.Number.Overflow
import Pseudocode.Proofs.Number.Reading

/-!
# Decimal literals

How a decimal numeral is written, apart from how it is read: digits with at most one point among
them, and perhaps a letter with an integer behind it. Reading takes as many digits as there are at
each place, and what follows them is never a digit, so it finds the parts that were written, and it
finds no parts in anything else.
-/

namespace Pseudocode

namespace Numeral

/-- What stands in front of a numeral: a sign or nothing. -/
inductive Sign where
  | none
  | plus
  | minus
  deriving DecidableEq, Repr

namespace Sign

/-- The characters of a sign. -/
def chars : Sign → List Char
  | none => []
  | plus => ['+']
  | minus => ['-']

/-- Whether a sign makes what follows it negative. -/
def isMinus : Sign → Bool
  | minus => true
  | _ => false

end Sign

/-- The exponent of a decimal literal: a letter, a sign or none, and at least one digit. -/
structure Power where
  letter : Char
  sign : Sign
  digits : List Char
  isLetter : letter = 'e' ∨ letter = 'E'
  isDigits : ∀ c ∈ digits, isDigit c = true
  nonempty : digits ≠ []

namespace Power

/-- The characters of an exponent. -/
def chars (p : Power) : List Char := p.letter :: (p.sign.chars ++ p.digits)

/-- The integer that an exponent stands for. -/
def value (p : Power) : Int :=
  if p.sign.isMinus then -(ofDigits 10 p.digits : Int) else ofDigits 10 p.digits

end Power

/-- A decimal literal without its sign: the digits in front of the point, those behind it if there
is a point, and the exponent if there is one. There is a digit in front of the point or behind
it. -/
structure Literal where
  whole : List Char
  fraction : Option (List Char)
  power : Option Power
  isDigits : ∀ c ∈ whole ++ fraction.getD [], isDigit c = true
  nonempty : whole ++ fraction.getD [] ≠ []

namespace Literal

/-- The point and the digits behind it. -/
def pointed : Option (List Char) → List Char
  | some digits => '.' :: digits
  | none => []

/-- The characters of a literal. -/
def chars (l : Literal) : List Char :=
  l.whole ++ (pointed l.fraction ++ (l.power.map Power.chars).getD [])

/-- The integer that the digits make without the point. -/
def significand (l : Literal) : Nat := ofDigits 10 (l.whole ++ l.fraction.getD [])

/-- The power of ten that the integer is multiplied with. -/
def exponent (l : Literal) : Int :=
  (l.power.map Power.value).getD 0 - (l.fraction.getD []).length

/-- The rational number that a literal stands for. -/
def value (l : Literal) : ℚ := l.significand * 10 ^ l.exponent

/-- The number that is nearest to a literal with a sign. -/
def number (l : Literal) (negative : Bool) : Number :=
  Number.ofMagnitude negative (Number.decimalBits l.significand l.exponent)

end Literal

section Signs

variable {cs rest : List Char} {negative : Bool}

theorem splitSign_append (s : Sign) (free : ∀ c ∈ rest.head?, c ≠ '+' ∧ c ≠ '-') :
    splitSign (s.chars ++ rest) = (s.isMinus, rest) := by
  cases s with
  | plus => rfl
  | minus => rfl
  | none =>
    cases rest with
    | nil => rfl
    | cons c rest =>
      obtain ⟨noPlus, noMinus⟩ := free c rfl
      rw [Sign.chars, List.nil_append, splitSign]
      · rfl
      · exact fun _ same => noMinus (List.cons.inj same).1
      · exact fun _ same => noPlus (List.cons.inj same).1

theorem exists_sign (split : splitSign cs = (negative, rest)) :
    ∃ s : Sign, cs = s.chars ++ rest ∧ s.isMinus = negative := by
  rw [splitSign.eq_def] at split
  split at split
  · cases split
    exact ⟨.minus, rfl, rfl⟩
  · cases split
    exact ⟨.plus, rfl, rfl⟩
  · cases split
    exact ⟨.none, rfl, rfl⟩

/-- A digit is no sign, no point and no letter. -/
theorem toNat_ne_of_isDigit {c d : Char} (digit : isDigit c = true)
    (far : d.toNat < 48 ∨ 57 < d.toNat) : c ≠ d := by
  have bounds := isDigit_iff.1 digit
  rintro rfl
  omega

theorem head_of_digits (digits : ∀ c ∈ cs, isDigit c = true) :
    ∀ c ∈ cs.head?, c ≠ '+' ∧ c ≠ '-' := by
  intro c first
  have digit := digits c (List.mem_of_mem_head? first)
  exact ⟨toNat_ne_of_isDigit digit (.inl (by decide)),
    toNat_ne_of_isDigit digit (.inl (by decide))⟩

end Signs

section Exponent

variable {cs : List Char} {c : Char} {e : Int}

theorem lowerAscii_eq_e : lowerAscii c = 'e' ↔ c = 'e' ∨ c = 'E' := by
  constructor
  · intro small
    rw [lowerAscii] at small
    split at small
    · next capital =>
      obtain ⟨low, high⟩ := capital
      rw [Char.le_def, UInt32.le_iff_toNat_le] at low high
      change 65 ≤ c.toNat at low
      change c.toNat ≤ 90 at high
      have code : (Char.ofNat (c.toNat + 32)).toNat = c.toNat + 32 := by
        rw [Char.toNat_ofNat, if_pos (.inl (by omega))]
      rw [small] at code
      have same : c.toNat = 69 := by
        change 101 = c.toNat + 32 at code
        omega
      right
      rw [← Char.ofNat_toNat c, same]
    · exact .inl small
  · rintro (rfl | rfl)
    · rfl
    · rfl

theorem exponent?_chars (p : Power) : exponent? (p.sign.chars ++ p.digits) = some p.value := by
  have all : p.digits.all isDigit = true := List.all_eq_true.2 p.isDigits
  have some : p.digits.isEmpty = false := List.isEmpty_eq_false_iff.2 p.nonempty
  rw [exponent?, splitSign_append p.sign (head_of_digits p.isDigits)]
  dsimp only
  rw [all, some, Bool.not_true, Bool.or_self, if_neg Bool.false_ne_true, Power.value]

theorem exists_power {letter : Char} (isLetter : letter = 'e' ∨ letter = 'E')
    (read : exponent? cs = some e) :
    ∃ p : Power, letter :: cs = p.chars ∧ e = p.value := by
  obtain ⟨⟨negative, digits⟩, split⟩ : ∃ r, splitSign cs = r := ⟨_, rfl⟩
  obtain ⟨s, rfl, rfl⟩ := exists_sign split
  rw [exponent?, split] at read
  simp only [Bool.or_eq_true, Bool.not_eq_true'] at read
  split at read
  · cases read
  · next formed =>
    rw [not_or, List.isEmpty_iff, Bool.not_eq_false] at formed
    refine ⟨⟨letter, s, digits, isLetter, List.all_eq_true.1 formed.2, formed.1⟩, rfl, ?_⟩
    exact (Option.some.inj read).symm

end Exponent

section Mantissa

variable {cs whole fraction rest : List Char}

theorem pointed_head {f : Option (List Char)} (after : ∀ c ∈ rest.head?, isDigit c = false) :
    ∀ c ∈ (Literal.pointed f ++ rest).head?, isDigit c = false := by
  cases f with
  | none => exact after
  | some digits =>
    intro c first
    obtain rfl : '.' = c := Option.some.inj first
    rfl

theorem takeWhile_digits (digits : ∀ c ∈ whole, isDigit c = true)
    (after : ∀ c ∈ rest.head?, isDigit c = false) :
    (whole ++ rest).takeWhile isDigit = whole ∧ (whole ++ rest).dropWhile isDigit = rest := by
  rw [List.takeWhile_append_of_pos digits, List.dropWhile_append_of_pos digits]
  cases rest with
  | nil => exact ⟨List.append_nil whole, rfl⟩
  | cons c rest =>
    have other : ¬ isDigit c = true := by simp [after c rfl]
    rw [List.takeWhile_cons_of_neg other, List.dropWhile_cons_of_neg other, List.append_nil]
    exact ⟨rfl, rfl⟩

/-- Digits with a point among them are found where what follows them starts with neither. -/
theorem mantissa?_append {f : Option (List Char)}
    (digits : ∀ c ∈ whole ++ f.getD [], isDigit c = true) (nonempty : whole ++ f.getD [] ≠ [])
    (after : ∀ c ∈ rest.head?, isDigit c = false ∧ c ≠ '.') :
    mantissa? isDigit (whole ++ (Literal.pointed f ++ rest)) = some (whole, f.getD [], rest) := by
  obtain ⟨front, back⟩ := List.forall_mem_append.1 digits
  obtain ⟨taken, left⟩ := takeWhile_digits front
    (pointed_head (f := f) fun c first => (after c first).1)
  have some : (whole.isEmpty && (f.getD []).isEmpty) = false := by
    rw [Bool.eq_false_iff, ne_eq, Bool.and_eq_true, List.isEmpty_iff, List.isEmpty_iff,
      ← List.append_eq_nil_iff]
    exact nonempty
  rw [mantissa?, taken, left]
  cases f with
  | none =>
    rw [Literal.pointed, List.nil_append]
    split
    next whole' rest' same =>
    split at same
    · exact absurd rfl (after '.' rfl).2
    · cases same
      rw [Option.getD_none] at some
      rw [some, if_neg Bool.false_ne_true, Option.getD_none]
  | some tail =>
    obtain ⟨taken', left'⟩ := takeWhile_digits back fun c first => (after c first).1
    rw [Option.getD_some] at taken' left' some
    change (if (whole.isEmpty && ((tail ++ rest).takeWhile isDigit).isEmpty) = true then none
      else Option.some
        (whole, (tail ++ rest).takeWhile isDigit, (tail ++ rest).dropWhile isDigit)) = _
    rw [taken', left', some, if_neg Bool.false_ne_true, Option.getD_some]

/-- What is found as digits with a point among them was written so. -/
theorem exists_mantissa (found : mantissa? isDigit cs = some (whole, fraction, rest)) :
    ∃ f : Option (List Char), cs = whole ++ (Literal.pointed f ++ rest) ∧ f.getD [] = fraction ∧
      (∀ c ∈ whole ++ fraction, isDigit c = true) ∧ whole ++ fraction ≠ [] := by
  have digits (cs : List Char) : ∀ c ∈ cs.takeWhile isDigit, isDigit c = true :=
    fun _ mem => List.mem_takeWhile_imp mem
  have parts (cs : List Char) : cs = cs.takeWhile isDigit ++ cs.dropWhile isDigit :=
    List.takeWhile_append_dropWhile.symm
  rw [mantissa?] at found
  have nonempty {xs ys : List Char} (some : ¬ (xs.isEmpty && ys.isEmpty) = true) :
      xs ++ ys ≠ [] := by
    rw [ne_eq, List.append_eq_nil_iff, ← List.isEmpty_iff, ← List.isEmpty_iff, ← Bool.and_eq_true]
    exact some
  have whole' := parts cs
  split at found
  next fraction' rest' behind =>
  split at found
  · cases found
  · next some =>
    cases found
    have front := digits cs
    split at behind
    · next r point =>
      cases behind
      refine ⟨Option.some (r.takeWhile isDigit), ?_, rfl,
        List.forall_mem_append.2 ⟨front, digits r⟩, nonempty some⟩
      rw [Literal.pointed, List.cons_append, ← parts r, ← point]
      exact whole'
    · cases behind
      refine ⟨none, whole', rfl, ?_, nonempty some⟩
      rw [List.append_nil]
      exact front

end Mantissa

/-- A literal starts with a digit or with a point, and so not with a sign. -/
theorem Literal.head_chars (l : Literal) : ∀ c ∈ l.chars.head?, c ≠ '+' ∧ c ≠ '-' := by
  obtain ⟨whole, fraction, power, digits, nonempty⟩ := l
  rw [Literal.chars]
  cases whole with
  | cons d whole =>
    intro c first
    obtain rfl : d = c := Option.some.inj first
    exact head_of_digits digits d rfl
  | nil =>
    cases fraction with
    | none => exact absurd rfl nonempty
    | some tail =>
      intro c first
      obtain rfl : '.' = c := Option.some.inj first
      decide

section Reading

variable {cs : List Char} {negative : Bool} {n : Numeral}

/-- A literal with a sign as a numeral, before it is rounded. -/
def Literal.numeral (l : Literal) (negative : Bool) : Numeral :=
  .decimal negative l.significand l.exponent

theorem decimal?_chars (l : Literal) (negative : Bool) :
    decimal? negative l.chars = some (l.numeral negative) := by
  obtain ⟨whole, fraction, power, digits, nonempty⟩ := l
  rw [decimal?, Literal.chars]
  cases power with
  | none =>
    have nothing : ∀ c ∈ ([] : List Char).head?, isDigit c = false ∧ c ≠ '.' := by simp
    have found := mantissa?_append digits nonempty nothing
    dsimp only [Option.map_none, Option.getD_none]
    rw [found]
    rfl
  | some p =>
    have letter : ∀ c ∈ p.chars.head?, isDigit c = false ∧ c ≠ '.' := by
      intro c first
      obtain rfl : p.letter = c := Option.some.inj first
      rcases p.isLetter with small | capital
      · rw [small]
        decide
      · rw [capital]
        decide
    have found := mantissa?_append digits nonempty letter
    have mark : (lowerAscii p.letter == 'e') = true := beq_iff_eq.2 (lowerAscii_eq_e.2 p.isLetter)
    dsimp only [Option.map_some, Option.getD_some]
    rw [found]
    change (if lowerAscii p.letter == 'e' then
      exponent? (p.sign.chars ++ p.digits) >>= fun e => some (Numeral.decimal negative
        (ofDigits 10 (whole ++ fraction.getD [])) (e - (fraction.getD []).length)) else _) = _
    rw [if_pos mark, exponent?_chars]
    rfl

theorem exists_literal (read : decimal? negative cs = some n) :
    ∃ l : Literal, cs = l.chars ∧ n = l.numeral negative := by
  obtain ⟨⟨whole, fraction, rest⟩, found, later⟩ := Option.bind_eq_some_iff.1 read
  obtain ⟨f, rfl, rfl, digits, nonempty⟩ := exists_mantissa found
  dsimp only at later
  split at later
  · obtain rfl := Option.some.inj later
    exact ⟨⟨whole, f, none, digits, nonempty⟩, rfl, rfl⟩
  · next c rest =>
    split at later
    · next mark =>
      obtain ⟨e, exponent, value⟩ := Option.bind_eq_some_iff.1 later
      obtain rfl := Option.some.inj value
      obtain ⟨p, spelt, rfl⟩ := exists_power (lowerAscii_eq_e.1 (beq_iff_eq.1 mark)) exponent
      rw [spelt]
      exact ⟨⟨whole, f, some p, digits, nonempty⟩, rfl, rfl⟩
    · cases later

/-- **What is read as decimal digits is what is written as a literal.** -/
theorem decimal?_eq_some_iff :
    decimal? negative cs = some n ↔ ∃ l : Literal, cs = l.chars ∧ n = l.numeral negative := by
  constructor
  · exact exists_literal
  · rintro ⟨l, rfl, rfl⟩
    exact decimal?_chars l negative

/-- A literal that is read is refused exactly if it is too large. -/
theorem value?_numeral (l : Literal) (negative : Bool) :
    (l.numeral negative).value? =
      if l.value < Number.overflowBound then some (l.number negative) else none := by
  have same : Number.decimalBits l.significand l.exponent < Number.infinityBits ↔
      l.value < Number.overflowBound := Number.decimalBits_lt_iff
  change value?.bounded? negative _ = _
  simp only [value?.bounded?, same]
  rfl

end Reading

end Numeral

end Pseudocode
