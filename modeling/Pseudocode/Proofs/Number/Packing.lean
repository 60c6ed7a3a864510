import Mathlib
import Pseudocode.Number.Binary

/-!
# The fields of a number and its model

The bits of a number are a sign, an exponent field and a significand field. The model of a number is
unpacked from them: an infinity or none where the exponent field is full, and otherwise a zero or a
significand and an exponent with a sign, the same as those of the number. What is unpacked and
packed again is as it was, so a number that is made from bits has these bits.
-/

namespace Pseudocode

open Float.Model Float.Model.UnpackedFloat

namespace Number

/-- The sign of a number as its model has it. -/
def sign (x : Number) : Sign := if x.isNegative then .negative else .positive

/-- The exponent field of a number. -/
def exponentField (x : Number) : Nat := x.magnitudeBits / fieldUnit

/-- The significand field of a number. -/
def significandField (x : Number) : Nat := x.magnitudeBits % fieldUnit

section Fields

variable (x : Number)

theorem toNat_unpackMantissa :
    (@unpackMantissa Format.binary64 x.toBits.toBitVec).toNat = x.significandField := by
  have field : (@unpackMantissa Format.binary64 x.toBits.toBitVec).toNat =
      x.toBits.toNat % fieldUnit := by
    simp [unpackMantissa, BitVec.extractLsb_toNat, fieldUnit]
  rw [field, significandField, magnitudeBits, Word.half, fieldUnit]
  omega

theorem toNat_unpackExponent_toBitVec (b : BitVec Format.binary64.numBits) :
    (unpackExponent b).toNat = b.toNat / fieldUnit % 2048 := by
  simp [unpackExponent, BitVec.extractLsb_toNat, fieldUnit, Nat.shiftRight_eq_div_pow]

theorem toNat_unpackExponent :
    (@unpackExponent Format.binary64 x.toBits.toBitVec).toNat = x.exponentField := by
  rw [toNat_unpackExponent_toBitVec, exponentField, magnitudeBits, Word.half, fieldUnit]
  change x.toBits.toNat / _ % _ = _
  omega

theorem ofBitVec_unpackSign :
    Sign.ofBitVec (@unpackSign Format.binary64 x.toBits.toBitVec) = x.sign := by
  have field : (@unpackSign Format.binary64 x.toBits.toBitVec).toNat =
      x.toBits.toNat / Word.half % 2 := by
    simp [unpackSign, BitVec.extractLsb_toNat, Word.half, Nat.shiftRight_eq_div_pow]
  have bound : x.toBits.toNat < Word.count := x.toBits.toNat_lt
  rw [Sign.ofBitVec, sign, isNegative]
  by_cases h : Word.half ≤ x.toBits.toNat
  · have set : @unpackSign Format.binary64 x.toBits.toBitVec ≠ 0#1 := by
      intro zero
      have none := congrArg BitVec.toNat zero
      rw [field] at none
      simp only [BitVec.toNat_ofNat, Word.half, Word.count] at none h bound
      omega
    simp [set, h]
  · have unset : @unpackSign Format.binary64 x.toBits.toBitVec = 0#1 := by
      apply BitVec.eq_of_toNat_eq
      rw [field]
      simp only [BitVec.toNat_ofNat, Word.half, Word.count] at h bound ⊢
      omega
    simp [unset, h]

theorem significand_eq : x.significand =
    if x.exponentField = 0 then x.significandField else fieldUnit + x.significandField := by
  rw [significand, exponentField, significandField]
  split
  · next zero =>
    rw [Nat.mod_eq_of_lt (Nat.lt_of_div_eq_zero (by decide) zero)]
  · exact Nat.add_comm _ _

theorem exponent_eq : x.exponent = (max x.exponentField 1 : Nat) - 1075 := rfl

variable {x}

theorem exponentField_lt (finite : x.isFiniteNumber = true) : x.exponentField < 2047 := by
  have small : x.magnitudeBits < infinityBits := of_decide_eq_true finite
  rw [exponentField, fieldUnit]
  rw [infinityBits] at small
  omega

/-- The model of a finite number is a zero, or has the significand and the exponent of the
number. -/
theorem unpack_of_finite (finite : x.isFiniteNumber = true) :
    (x.significand = 0 ∧ x.toModel.unpack = .zero x.sign) ∨
      ∃ pos, x.toModel.unpack = .finite x.sign x.significand x.exponent pos := by
  have field := toNat_unpackExponent x
  have notOnes : @unpackExponent Format.binary64 x.toBits.toBitVec ≠ -1#_ := by
    intro ones
    rw [ones] at field
    have bound := exponentField_lt finite
    rw [← field] at bound
    exact absurd bound (by decide)
  change (_ ∧ UnpackedFloat.unpack Format.binary64 x.toBits.toBitVec = _) ∨
    ∃ pos, UnpackedFloat.unpack Format.binary64 x.toBits.toBitVec = _
  have significand := x.significand_eq
  have exponent := x.exponent_eq
  rw [← toNat_unpackMantissa, ← toNat_unpackExponent] at significand
  rw [← toNat_unpackExponent] at exponent
  rw [← ofBitVec_unpackSign]
  simp only [UnpackedFloat.unpack]
  rw [if_neg notOnes]
  by_cases zero : @unpackExponent Format.binary64 x.toBits.toBitVec = 0#_
  · rw [if_pos zero]
    rw [zero] at significand exponent
    by_cases none : @unpackMantissa Format.binary64 x.toBits.toBitVec = 0#_
    · rw [dif_pos none]
      rw [none] at significand
      exact .inl ⟨significand, rfl⟩
    · rw [dif_neg none, zero]
      refine .inr ⟨?_, ?_⟩
      · rw [significand]
        exact Nat.pos_of_ne_zero fun none' => none (BitVec.eq_of_toNat_eq none')
      · congr 1
        · exact significand.symm
        · exact exponent.symm
  · rw [if_neg zero]
    have positive : 0 < (@unpackExponent Format.binary64 x.toBits.toBitVec).toNat :=
      Nat.pos_of_ne_zero fun none => zero (BitVec.eq_of_toNat_eq none)
    have implicit : (1#1 ++ @unpackMantissa Format.binary64 x.toBits.toBitVec).toNat =
        x.significand := by
      rw [significand, if_neg (Nat.ne_of_gt positive), BitVec.toNat_append,
        ← Nat.shiftLeft_add_eq_or_of_lt (BitVec.isLt _)]
      rfl
    have biased : x.exponent = (@unpackExponent Format.binary64 x.toBits.toBitVec).toNat -
        (Format.binary64.exponentBias + Format.binary64.mantissaBitsWithoutImplicit : Nat) := by
      rw [exponent, Nat.max_eq_left positive]
      rfl
    refine .inr ⟨?_, ?_⟩
    · rw [significand, if_neg (Nat.ne_of_gt positive)]
      exact Nat.add_pos_left (by decide) _
    · congr 1
      exact biased.symm

/-- The model of any other number is an infinity or none. -/
theorem unpack_of_not_finite (infinite : x.isFiniteNumber = false) :
    (∃ s, x.toModel.unpack = .infinity s) ∨ x.toModel.unpack = .notANumber := by
  have ones : @unpackExponent Format.binary64 x.toBits.toBitVec = -1#_ := by
    have large : infinityBits ≤ x.magnitudeBits := Nat.le_of_not_lt (of_decide_eq_false infinite)
    have bound : x.magnitudeBits < Word.half := Nat.mod_lt _ (by decide)
    apply BitVec.eq_of_toNat_eq
    rw [toNat_unpackExponent]
    change x.exponentField = 2047
    rw [exponentField, fieldUnit]
    rw [infinityBits] at large
    rw [Word.half] at bound
    omega
  change (∃ s, UnpackedFloat.unpack Format.binary64 x.toBits.toBitVec = _) ∨
    UnpackedFloat.unpack Format.binary64 x.toBits.toBitVec = _
  simp only [UnpackedFloat.unpack]
  rw [if_pos ones]
  split
  · exact .inl ⟨_, rfl⟩
  · exact .inr rfl

end Fields

section Making

variable {bits : Nat} {negative : Bool}

/-- A finite number that is made from a sign and magnitude bits has these bits. -/
theorem toNat_toBits_ofMagnitude (finite : bits < infinityBits) :
    (ofMagnitude negative bits).toBits.toNat = bits + if negative then Word.half else 0 := by
  have below : bits < 9218868437227405312 := finite
  let whole := bits + if negative then Word.half else 0
  have signed : whole = bits ∨ whole = bits + 9223372036854775808 := by
    cases negative with
    | false => exact .inl rfl
    | true => exact .inr rfl
  have word : (UInt64.ofNat whole).toBitVec.toNat = whole := by
    refine Nat.mod_eq_of_lt ?_
    change whole < 18446744073709551616
    omega
  have notOnes : @unpackExponent Format.binary64 (UInt64.ofNat whole).toBitVec ≠ -1#_ := by
    intro ones
    have full := congrArg BitVec.toNat ones
    rw [toNat_unpackExponent_toBitVec, word, fieldUnit] at full
    change _ = 2047 at full
    omega
  have number : ¬ @isNaNBits Format.binary64 (UInt64.ofNat whole).toBitVec = true := by
    rw [isNaNBits, decide_eq_true_iff]
    exact fun h => notOnes h.1
  have packed := @pack_unpack Format.binary64 (UInt64.ofNat whole).toBitVec (by decide)
  rw [if_neg number] at packed
  exact (congrArg BitVec.toNat packed).trans word

theorem magnitudeBits_ofMagnitude (finite : bits < infinityBits) :
    (ofMagnitude negative bits).magnitudeBits = bits := by
  rw [magnitudeBits, toNat_toBits_ofMagnitude finite]
  rw [infinityBits] at finite
  rw [Word.half]
  split
  · omega
  · omega

theorem isNegative_ofMagnitude (finite : bits < infinityBits) :
    (ofMagnitude negative bits).isNegative = negative := by
  rw [isNegative, toNat_toBits_ofMagnitude finite]
  rw [infinityBits] at finite
  rw [Word.half]
  cases negative with
  | true => exact decide_eq_true (Nat.le_add_left _ _)
  | false => exact decide_eq_false (by simp; omega)

/-- A number is made of its sign and its magnitude bits. -/
theorem ofMagnitude_self (x : Number) : ofMagnitude x.isNegative x.magnitudeBits = x := by
  have bound : x.toBits.toNat < Word.count := x.toBits.toNat_lt
  have bits : x.magnitudeBits + (if x.isNegative then Word.half else 0) = x.toBits.toNat := by
    rw [Word.count] at bound
    rw [magnitudeBits, isNegative]
    simp only [decide_eq_true_eq]
    rw [Word.half]
    split
    · omega
    · omega
  rw [ofMagnitude, bits, UInt64.ofNat_toNat, Float.ofBits_toBits]

end Making

end Number

end Pseudocode
