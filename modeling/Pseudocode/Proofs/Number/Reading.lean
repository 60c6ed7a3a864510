import Mathlib
import Pseudocode.Number.Numeral
import Pseudocode.Proofs.Number.Decimal
import Pseudocode.Proofs.Number.Sum
import Pseudocode.Proofs.Text.Characters

/-!
# A number that is printed can be read

What is printed for a number is a sign and a body, and the body is a word for an infinity or digits
with at most one point among them. Reading finds the same decimal in it that was printed, or the one
with its zeros written out, and so the same number. Only the sign of a zero is not printed.
-/

namespace Pseudocode

theorem isDigit_iff {c : Char} : isDigit c = true ↔ 48 ≤ c.toNat ∧ c.toNat ≤ 57 := by
  rw [isDigit, Bool.and_eq_true, decide_eq_true_iff, decide_eq_true_iff, Char.le_def, Char.le_def,
    UInt32.le_iff_toNat_le, UInt32.le_iff_toNat_le]
  rfl

namespace Numeral

variable {c : Char} {cs whole fraction : List Char} {negative : Bool}

theorem lowerAscii_of_lt (h : c.toNat < 65) : lowerAscii c = c := by
  have small : ¬ 'A' ≤ c := by
    rw [Char.le_def, UInt32.le_iff_toNat_le]
    exact Nat.not_le.2 h
  rw [lowerAscii, if_neg fun between => small between.1]

/-- A character that the body of a numeral is printed with. -/
def IsPlain (c : Char) : Prop := isDigit c = true ∨ c = '.'

theorem IsPlain.toNat_bounds (h : IsPlain c) : 46 ≤ c.toNat ∧ c.toNat ≤ 57 := by
  rcases h with digit | rfl
  · have bounds := isDigit_iff.1 digit
    omega
  · decide

section Digits

theorem digitValue_of_isDigit (h : isDigit c = true) : digitValue c = c.toNat - 48 := by
  rw [digitValue, if_pos h]

theorem isDigit_of_mem_toDigits {n : Nat} (h : c ∈ Nat.toDigits 10 n) : isDigit c = true := by
  have digit := Nat.isDigit_of_mem_toDigits (by decide) (by decide) h
  rw [isDigit_iff]
  rw [Char.isDigit, Bool.and_eq_true, decide_eq_true_iff, decide_eq_true_iff] at digit
  exact digit

theorem ofDigits_append (cs ds : List Char) :
    ofDigits 10 (cs ++ ds) = ds.foldl (fun n c => 10 * n + digitValue c) (ofDigits 10 cs) :=
  List.foldl_append

/-- The digits of a natural number spell it. -/
theorem ofDigits_toDigits (n : Nat) : ofDigits 10 (Nat.toDigits 10 n) = n := by
  have same : ofDigits 10 (Nat.toDigits 10 n) = Nat.ofDigitChars 10 (Nat.toDigits 10 n) 0 := by
    refine List.foldl_ext _ _ _ fun value c digit => ?_
    rw [digitValue_of_isDigit (isDigit_of_mem_toDigits digit)]
    rfl
  rw [same, Nat.ofDigitChars_toDigits (by decide) (by decide)]

theorem ofDigits_append_zeros (cs : List Char) (k : Nat) :
    ofDigits 10 (cs ++ List.replicate k '0') = ofDigits 10 cs * 10 ^ k := by
  induction k with
  | zero => rw [List.replicate_zero, List.append_nil, pow_zero, mul_one]
  | succ k ih =>
    have zero : digitValue '0' = 0 := rfl
    rw [List.replicate_succ', ← List.append_assoc, ofDigits_append, ih, List.foldl_cons,
      List.foldl_nil, zero, pow_succ]
    ring

theorem ofDigits_zeros_append (k : Nat) (cs : List Char) :
    ofDigits 10 (List.replicate k '0' ++ cs) = ofDigits 10 cs := by
  have zeros := ofDigits_append_zeros [] k
  rw [List.nil_append] at zeros
  rw [ofDigits_append, zeros]
  exact congrArg (cs.foldl _) (Nat.zero_mul _)

end Digits

section Parsing

theorem underscoresSeparate_of_not_mem {isDigit : Char → Bool} (before : Bool) (h : '_' ∉ cs) :
    underscoresSeparate isDigit before cs = true := by
  induction cs generalizing before with
  | nil => rfl
  | cons c rest ih =>
    obtain ⟨first, others⟩ := not_or.1 (mt List.mem_cons.2 h)
    rw [underscoresSeparate]
    · exact ih _ others
    · exact fun same => first same.symm

/-- Where there are no underscores and no mark of a base there are decimal digits or none. -/
theorem digits?_eq_decimal? (free : ∀ c ∈ cs, c ≠ '_' ∧ lowerAscii c ≠ 'x') :
    digits? negative cs = decimal? negative cs := by
  have none : '_' ∉ cs := fun mem => (free _ mem).1 rfl
  have kept : cs.filter (· != '_') = cs :=
    List.filter_eq_self.2 fun c mem => bne_iff_ne.2 (free c mem).1
  rw [digits?.eq_def]
  split
  · next x rest =>
    have mark : (lowerAscii x == 'x') = false := beq_eq_false_iff_ne.2 (free x (by simp)).2
    rw [mark, if_neg Bool.false_ne_true, if_pos (underscoresSeparate_of_not_mem _ none), kept]
  · rw [if_pos (underscoresSeparate_of_not_mem _ none), kept]

/-- Plain characters hold no underscores and no mark of a base. -/
theorem digits?_of_plain (plain : ∀ c ∈ cs, IsPlain c) :
    digits? negative cs = decimal? negative cs := by
  refine digits?_eq_decimal? fun c mem => ?_
  have bounds := (plain c mem).toNat_bounds
  rw [lowerAscii_of_lt (by omega)]
  constructor
  · rintro rfl
    exact absurd bounds (by decide)
  · rintro rfl
    exact absurd bounds (by decide)

theorem decimal?_of_digits (nonempty : whole ≠ []) (digits : ∀ c ∈ whole, isDigit c = true) :
    decimal? negative whole = some (.decimal negative (ofDigits 10 whole) 0) := by
  have taken : whole.takeWhile isDigit = whole := List.takeWhile_eq_self_iff.2 digits
  have left : whole.dropWhile isDigit = [] := List.dropWhile_eq_nil_iff.2 digits
  simp [decimal?, mantissa?, taken, left, nonempty]

theorem decimal?_of_point (nonempty : whole ≠ []) (digits : ∀ c ∈ whole, isDigit c = true)
    (digits' : ∀ c ∈ fraction, isDigit c = true) :
    decimal? negative (whole ++ '.' :: fraction) =
      some (.decimal negative (ofDigits 10 (whole ++ fraction)) (-fraction.length)) := by
  have point : isDigit '.' = false := rfl
  have taken : (whole ++ '.' :: fraction).takeWhile isDigit = whole := by
    rw [List.takeWhile_append_of_pos digits, List.takeWhile_cons_of_neg (by decide),
      List.append_nil]
  have left : (whole ++ '.' :: fraction).dropWhile isDigit = '.' :: fraction := by
    rw [List.dropWhile_append_of_pos digits, List.dropWhile_cons_of_neg (by decide)]
  have taken' : fraction.takeWhile isDigit = fraction := List.takeWhile_eq_self_iff.2 digits'
  have left' : fraction.dropWhile isDigit = [] := List.dropWhile_eq_nil_iff.2 digits'
  simp [decimal?, mantissa?, taken, left, taken', left', nonempty]

/-- A body with a minus sign in front of it, or none. -/
def withSign (negative : Bool) (body : List Char) : List Char :=
  if negative then '-' :: body else body

/-- What starts with a digit is no word. -/
theorem parse?_withSign (negative : Bool) (digit : isDigit c = true) (rest : List Char) :
    parse? (withSign negative (c :: rest)) = digits? negative (c :: rest) := by
  have bounds := isDigit_iff.1 digit
  have small : lowerAscii c = c := lowerAscii_of_lt (by omega)
  have differs {d : Char} (far : d.toNat < 48 ∨ 57 < d.toNat) : c ≠ d := by
    rintro rfl
    omega
  have notNan : ((withSign negative (c :: rest)).map lowerAscii == "nan".toList) = false := by
    rw [beq_eq_false_iff_ne]
    intro same
    cases negative with
    | true => exact absurd (List.cons.inj same).1 (by decide)
    | false => exact differs (by decide) (small.symm.trans (List.cons.inj same).1)
  have splits : splitSign (withSign negative (c :: rest)) = (negative, c :: rest) := by
    cases negative with
    | true => rfl
    | false =>
      rw [withSign, if_neg Bool.false_ne_true, splitSign]
      · exact fun _ same => differs (by decide) (List.cons.inj same).1
      · exact fun _ same => differs (by decide) (List.cons.inj same).1
  have notWord (tail : List Char) : ((c :: rest).map lowerAscii == 'i' :: tail) = false := by
    rw [beq_eq_false_iff_ne]
    exact fun same => differs (by decide) (small.symm.trans (List.cons.inj same).1)
  have notInf : ((c :: rest).map lowerAscii == "inf".toList) = false := notWord _
  have notInfinity : ((c :: rest).map lowerAscii == "infinity".toList) = false := notWord _
  rw [parse?, notNan, if_neg Bool.false_ne_true, splits]
  simp only [notInf, notInfinity, Bool.or_self, Bool.false_eq_true, if_false]

end Parsing

section Positional

variable {d : Number.Decimal}

/-- A decimal is written with zeros behind its digits or with a point among them or in front of
them. -/
theorem positional_cases (d : Number.Decimal) :
    (∃ k : Nat, d.exponent = k ∧
      d.positional = Nat.toDigits 10 d.digits ++ List.replicate k '0') ∨
    ∃ whole fraction : List Char, d.positional = whole ++ '.' :: fraction ∧ whole ≠ [] ∧
      (∀ c ∈ whole ++ fraction, isDigit c = true) ∧ ofDigits 10 (whole ++ fraction) = d.digits ∧
        -(fraction.length : Int) = d.exponent := by
  have digits : ∀ c ∈ Nat.toDigits 10 d.digits, isDigit c = true :=
    fun _ mem => isDigit_of_mem_toDigits mem
  have nonempty : 0 < (Nat.toDigits 10 d.digits).length := Nat.length_toDigits_pos
  rw [Number.Decimal.positional]
  split
  · next upward =>
    obtain ⟨k, exponent⟩ := Int.eq_ofNat_of_zero_le upward
    exact .inl ⟨k, exponent, by rw [exponent, Int.toNat_natCast]⟩
  next downward =>
  refine .inr ?_
  split
  · next inside =>
    refine ⟨_, _, rfl, ?_, ?_, ?_, ?_⟩
    · rw [← List.length_pos_iff_ne_nil, List.length_take]
      omega
    · rw [List.take_append_drop]
      exact digits
    · rw [List.take_append_drop, ofDigits_toDigits]
    · rw [List.length_drop]
      omega
  · next outside =>
    refine ⟨['0'], _, rfl, List.cons_ne_nil _ _, ?_, ?_, ?_⟩
    · intro c mem
      rw [List.singleton_append, List.mem_cons, List.mem_append, List.mem_replicate] at mem
      rcases mem with rfl | ⟨-, rfl⟩ | mem
      · rfl
      · rfl
      · exact digits c mem
    · exact (ofDigits_zeros_append 1 _).trans
        ((ofDigits_zeros_append _ _).trans (ofDigits_toDigits _))
    · rw [List.length_append, List.length_replicate]
      omega

theorem isPlain_of_mem_positional (mem : c ∈ d.positional) : IsPlain c := by
  rcases positional_cases d with ⟨k, -, spelt⟩ | ⟨whole, fraction, spelt, -, digits, -, -⟩
  · rw [spelt, List.mem_append, List.mem_replicate] at mem
    rcases mem with mem | ⟨-, rfl⟩
    · exact .inl (isDigit_of_mem_toDigits mem)
    · exact .inl rfl
  · rw [spelt, List.mem_append, List.mem_cons] at mem
    rcases mem with mem | rfl | mem
    · exact .inl (digits c (List.mem_append_left _ mem))
    · exact .inr rfl
    · exact .inl (digits c (List.mem_append_right _ mem))

theorem exists_positional_cons (d : Number.Decimal) :
    ∃ c rest, d.positional = c :: rest ∧ isDigit c = true := by
  rcases positional_cases d with ⟨k, -, spelt⟩ | ⟨whole, fraction, spelt, nonempty, digits, -, -⟩
  · obtain ⟨c, rest, same⟩ := List.exists_cons_of_ne_nil
      (Nat.toDigits_ne_nil (n := d.digits) (b := 10))
    refine ⟨c, rest ++ List.replicate k '0', by rw [spelt, same, List.cons_append], ?_⟩
    exact isDigit_of_mem_toDigits (n := d.digits) (by rw [same]; exact List.mem_cons_self)
  · obtain ⟨c, rest, rfl⟩ := List.exists_cons_of_ne_nil nonempty
    exact ⟨c, rest ++ '.' :: fraction, spelt, digits c (by simp)⟩

/-- In the positional form of a decimal a decimal of the same value is read. -/
theorem exists_digits?_positional (negative : Bool) (positive : 0 < d.digits) :
    ∃ n k, digits? negative d.positional = some (.decimal negative n k) ∧
      Number.decimalBits n k = Number.decimalBits d.digits d.exponent := by
  rw [digits?_of_plain fun _ mem => isPlain_of_mem_positional mem]
  rcases positional_cases d with ⟨k, exponent, spelt⟩ | ⟨whole, fraction, spelt, nonempty, digits,
    value, exponent⟩
  · refine ⟨d.digits * 10 ^ k, 0, ?_, ?_⟩
    · rw [spelt, decimal?_of_digits, ofDigits_append_zeros, ofDigits_toDigits]
      · exact List.append_ne_nil_of_left_ne_nil Nat.toDigits_ne_nil _
      · intro c mem
        rw [List.mem_append, List.mem_replicate] at mem
        rcases mem with mem | ⟨-, rfl⟩
        · exact isDigit_of_mem_toDigits mem
        · rfl
    · rw [Number.decimalBits_mul_pow positive, exponent]
  · refine ⟨d.digits, d.exponent, ?_, rfl⟩
    rw [spelt, decimal?_of_point nonempty, value, exponent]
    · exact fun c mem => digits c (List.mem_append_left _ mem)
    · exact fun c mem => digits c (List.mem_append_right _ mem)

end Positional

end Numeral

namespace Number

open Numeral

variable {x y : Number}

section Forms

/-- A number is none, an infinity, a zero, or it has a significand. -/
theorem forms (x : Number) :
    x = nan ∨ (∃ negative, x = infinity negative) ∨ (∃ negative, x = ofMagnitude negative 0) ∨
      (x.isFiniteNumber = true ∧ 0 < x.significand) := by
  have packed := ofUnpacked_unpack x
  cases finite : x.isFiniteNumber with
  | false =>
    rcases unpack_of_not_finite finite with ⟨s, infinite⟩ | none
    · rw [infinite] at packed
      cases s with
      | positive => exact .inr (.inl ⟨false, packed.symm.trans (by decide +kernel)⟩)
      | negative => exact .inr (.inl ⟨true, packed.symm.trans (by decide +kernel)⟩)
    · rw [none] at packed
      exact .inl (packed.symm.trans (by decide +kernel))
  | true =>
    rcases unpack_of_finite finite with ⟨-, zero⟩ | ⟨positive, -⟩
    · rw [zero] at packed
      generalize x.sign = s at packed
      cases s with
      | positive => exact .inr (.inr (.inl ⟨false, packed.symm.trans (by decide +kernel)⟩))
      | negative => exact .inr (.inr (.inl ⟨true, packed.symm.trans (by decide +kernel)⟩))
    · exact .inr (.inr (.inr ⟨rfl, positive⟩))

end Forms

section Printing

theorem isNaN_of_finite (finite : x.isFiniteNumber = true) : x.isNaN = false := by
  rw [Float.isNaN, Float.Model.isNaN]
  rcases unpack_of_finite finite with ⟨-, model⟩ | ⟨pos, model⟩
  · rw [model]
    rfl
  · rw [model]
    rfl

section Finite

variable (finite : x.isFiniteNumber = true) (positive : 0 < x.significand)
include finite positive

theorem beq_zero_of_finite : (x == 0) = false := by
  have magnitude : 0 < x.magnitude := mul_pos (Nat.cast_pos.2 positive) (by positivity)
  rw [Bool.eq_false_iff, ne_eq, beq_iff (value?_eq finite) value?_zero, Nat.cast_zero]
  split
  · exact (neg_lt_zero.2 magnitude).ne
  · exact magnitude.ne'

/-- A number with a significand is printed in positional form. -/
theorem chars_of_finite : x.chars = withSign x.isNegative x.shortest.positional := by
  obtain ⟨pos, model⟩ := (unpack_of_finite finite).resolve_left fun zero => positive.ne' zero.1
  have bounded : x.isInf = false := by
    rw [Float.isInf, Float.Model.isInf, model]
    rfl
  simp only [chars, isNaN_of_finite finite, bounded, beq_zero_of_finite finite positive,
    Bool.false_eq_true, if_false]
  rfl

theorem ofChars?_of_finite : ofChars? x.chars = some x := by
  obtain ⟨c, rest, spelt, digit⟩ := exists_positional_cons x.shortest
  obtain ⟨n, k, read, same⟩ := exists_digits?_positional x.isNegative
    (shortest_digits_pos finite positive)
  rw [decimalBits_shortest finite positive] at same
  have bits : x.magnitudeBits < infinityBits := of_decide_eq_true finite
  rw [ofChars?, chars_of_finite finite positive, spelt, parse?_withSign _ digit, ← spelt, read]
  change value?.bounded? x.isNegative (decimalBits n k) = some x
  rw [same, value?.bounded?, if_pos bits, ofMagnitude_self]

end Finite

/-- **What is printed for a number is read as that number**, and this holds of the infinities, of
both zeros and of what is no number as well. -/
theorem ofChars?_chars (x : Number) : ofChars? x.chars = some x := by
  rcases x.forms with rfl | ⟨negative, rfl⟩ | ⟨negative, rfl⟩ | ⟨finite, positive⟩
  · decide +kernel
  · cases negative with
    | true => decide +kernel
    | false => decide +kernel
  · cases negative with
    | true => decide +kernel
    | false => decide +kernel
  · exact ofChars?_of_finite finite positive

/-- The number without the sign of a zero. -/
def unsigned (x : Number) : Number := if x == 0 then 0 else x

/-- The text of a number leaves out the sign of a zero, and nothing else. -/
theorem text_eq (x : Number) : x.text = Text.ofChars x.unsigned.chars := by
  rw [text, unsigned]
  split
  · decide +kernel
  · rfl

/-- Numbers with one text are the same but for the sign of a zero. -/
theorem text_inj (same : x.text = y.text) : x.unsigned = y.unsigned := by
  rw [text_eq, text_eq] at same
  have chars := Text.ofChars_injective same
  have read := ofChars?_chars x.unsigned
  rw [chars, ofChars?_chars y.unsigned] at read
  exact (Option.some.inj read).symm

/-- A number without a sign has none to leave out. -/
theorem unsigned_eq_self (positive : x.isNegative = false) : x.unsigned = x := by
  rw [unsigned]
  split
  · next zero =>
    rcases (Float.beq_iff_ne_nan_and_eq.1 zero).2.2 with same | ⟨same, -⟩ | ⟨same, -⟩
    · exact same.symm
    · exact same.symm
    · rw [same] at positive
      exact absurd positive (by decide +kernel)
  · rfl

end Printing

/-- Digits alone spell a number without a sign. -/
theorem isNegative_of_digits {cs : List Char} (nonempty : cs ≠ [])
    (digits : ∀ c ∈ cs, isDigit c = true) (read : ofChars? cs = some x) : x.isNegative = false := by
  obtain ⟨c, rest, rfl⟩ := List.exists_cons_of_ne_nil nonempty
  have parsed : parse? (c :: rest) = some (.decimal false (ofDigits 10 (c :: rest)) 0) := by
    refine (parse?_withSign false (digits c List.mem_cons_self) rest).trans ?_
    rw [digits?_of_plain fun a mem => .inl (digits a mem), decimal?_of_digits nonempty digits]
  rw [ofChars?, parsed] at read
  change value?.bounded? false _ = some x at read
  rw [value?.bounded?] at read
  split at read
  · next finite =>
    cases read
    exact isNegative_ofMagnitude finite
  · cases read

end Number

end Pseudocode
