import Mathlib
import Pseudocode.Proofs.Number.Packing

/-!
# What is a number is rounded to itself

A value is rounded in two places: behind every arithmetic operation, where it comes as a significand
and an exponent, and where a numeral is read, where it comes as a quotient. Both first find the
exponent that a number of this size has. If the value is that of a number, this is the exponent of
the number, and no digit of the significand is lost.
-/

namespace Pseudocode

open Float.Model.UnpackedFloat

/-- A significand and an exponent as a number has them: the highest bit is set unless the exponent
is the least. -/
structure IsCanonical (m : Nat) (e : Int) : Prop where
  bound : m < 9007199254740992
  least : -1074 ≤ e
  normal : e = -1074 ∨ 4503599627370496 ≤ m

theorem Number.isCanonical {x : Number} : IsCanonical x.significand x.exponent := by
  have field : x.significandField < fieldUnit := Nat.mod_lt _ (by decide)
  rw [significand_eq, exponent_eq]
  rw [fieldUnit] at field ⊢
  split
  · next zero => exact ⟨by omega, by omega, .inl (by omega)⟩
  · exact ⟨by omega, by omega, .inr (by omega)⟩

section Size

variable {m num den : Nat} {e : Int}

theorem log_eq_of_zpow_le {r : ℚ} {z : Int} (lower : 2 ^ z ≤ r) (upper : r < 2 ^ (z + 1)) :
    Int.log 2 r = z := by
  have positive : 0 < r := (zpow_pos (by norm_num) z).trans_le lower
  have above : z ≤ Int.log 2 r :=
    (Int.zpow_le_iff_le_log (by norm_num) positive).1 (by exact_mod_cast lower)
  have below : Int.log 2 r < z + 1 :=
    (Int.lt_zpow_iff_log_lt (by norm_num) positive).1 (by exact_mod_cast upper)
  omega

theorem zpow_log2_le (positive : 0 < m) : (2 : ℚ) ^ (m.log2 : Int) ≤ m := by
  rw [zpow_natCast]
  exact_mod_cast Nat.log2_self_le positive.ne'

theorem lt_zpow_log2 (m : Nat) : (m : ℚ) < 2 ^ ((m.log2 : Int) + 1) := by
  have above : m < 2 ^ (m.log2 + 1) := Nat.lt_log2_self
  exact_mod_cast above

theorem log_scaled (positive : 0 < m) (e : Int) :
    Int.log 2 ((m : ℚ) * 2 ^ e) = m.log2 + e := by
  have power : (0 : ℚ) < 2 ^ e := zpow_pos (by norm_num) e
  refine log_eq_of_zpow_le ?_ ?_
  · rw [zpow_add₀ (by norm_num)]
    exact mul_le_mul_of_nonneg_right (zpow_log2_le positive) power.le
  · rw [add_right_comm, zpow_add₀ (by norm_num)]
    exact mul_lt_mul_of_pos_right (lt_zpow_log2 m) power

/-- The exponent of a number follows from the size of its value. -/
theorem IsCanonical.exponent_eq (canonical : IsCanonical m e) (positive : 0 < m) :
    max (Int.log 2 ((m : ℚ) * 2 ^ e) - 52) (-1074) = e := by
  have low : m.log2 < 53 := (Nat.log2_lt positive.ne').2 canonical.bound
  have least := canonical.least
  rw [log_scaled positive]
  rcases canonical.normal with rfl | normal
  · omega
  · have high : 52 ≤ m.log2 := (Nat.le_log2 positive.ne').2 normal
    omega

theorem zpow_toNat_div {a : ℚ} (nonzero : a ≠ 0) (z : Int) :
    a ^ z = a ^ z.toNat / a ^ (-z).toNat := by
  rw [← zpow_natCast, ← zpow_natCast, ← zpow_sub₀ nonzero]
  congr 1
  omega

theorem floorLog2_eq_log (hnum : 0 < num) (hden : 0 < den) :
    Number.floorLog2 num den = Int.log 2 ((num : ℚ) / den) := by
  have positive : (0 : ℚ) < den := by exact_mod_cast hden
  have upper : (num : ℚ) / den < 2 ^ ((num.log2 : Int) - den.log2 + 1) := by
    rw [div_lt_iff₀ positive]
    calc (num : ℚ)
      _ < 2 ^ ((num.log2 : Int) + 1) := lt_zpow_log2 num
      _ = 2 ^ ((num.log2 : Int) - den.log2 + 1) * 2 ^ (den.log2 : Int) := by
        rw [← zpow_add₀ (by norm_num)]
        congr 1
        ring
      _ ≤ 2 ^ ((num.log2 : Int) - den.log2 + 1) * den := by
        exact mul_le_mul_of_nonneg_left (zpow_log2_le hden) (by positivity)
  have lower : 2 ^ ((num.log2 : Int) - den.log2 - 1) ≤ (num : ℚ) / den := by
    rw [le_div_iff₀ positive]
    calc 2 ^ ((num.log2 : Int) - den.log2 - 1) * (den : ℚ)
      _ ≤ 2 ^ ((num.log2 : Int) - den.log2 - 1) * 2 ^ ((den.log2 : Int) + 1) := by
        exact mul_le_mul_of_nonneg_left (lt_zpow_log2 den).le (by positivity)
      _ = 2 ^ (num.log2 : Int) := by
        rw [← zpow_add₀ (by norm_num)]
        congr 1
        ring
      _ ≤ num := zpow_log2_le hnum
  have test : den * 2 ^ ((num.log2 : Int) - den.log2).toNat ≤
      num * 2 ^ (-((num.log2 : Int) - den.log2)).toNat ↔
        (2 : ℚ) ^ ((num.log2 : Int) - den.log2) ≤ (num : ℚ) / den := by
    rw [zpow_toNat_div two_ne_zero, div_le_div_iff₀ (by positivity) positive]
    rw [← Nat.cast_le (α := ℚ), mul_comm den]
    push_cast
    rfl
  symm
  rw [Number.floorLog2]
  simp only [Nat.pow_eq]
  split
  · next fits => exact log_eq_of_zpow_le (test.1 fits) upper
  · next large =>
    refine log_eq_of_zpow_le lower ?_
    rw [sub_add_cancel]
    exact not_le.1 (mt test.2 large)

end Size

section Arithmetic

variable {m m' : Nat} {e e' : Int}

/-- Binary digits that are zero go without a trace. -/
theorem shiftRight_scaled (m d : Nat) :
    (⟨m * 2 ^ d, false, false⟩ : ExtendedMantissa) >>> d = ⟨m, false, false⟩ := by
  change d.repeat ExtendedMantissa.shiftRightOne _ = _
  induction d generalizing m with
  | zero => simp [Nat.repeat]
  | succ d ih =>
    have last : (⟨m * 2, false, false⟩ : ExtendedMantissa).shiftRightOne = ⟨m, false, false⟩ := by
      simp [ExtendedMantissa.shiftRightOne]
    rw [Nat.repeat, pow_succ', ← mul_assoc, ih, last]

/-- Whatever a value is scaled by, arithmetic looks for the exponent that its number has. -/
theorem targetExponent_eq (positive : 0 < m) (canonical : IsCanonical m e) (positive' : 0 < m')
    (same : (m' : ℚ) * 2 ^ e' = m * 2 ^ e) :
    Float.Model.Format.binary64.targetExponent (Float.Model.totalExponent m' e') = e := by
  rw [← canonical.exponent_eq positive, ← same, log_scaled positive']
  change max ((m'.log2 : Int) + 1 + e' - 53) (-1074) = _
  congr 1
  ring

theorem roundWithAccuracy_of_isCanonical (positive : 0 < m) (canonical : IsCanonical m e)
    (s : Sign) (d : Nat) :
    roundWithAccuracy Float.Model.Format.binary64 s (m * 2 ^ d) (e - d) .exact =
      .finite s m e positive := by
  have scaled : ((m * 2 ^ d : Nat) : ℚ) * 2 ^ (e - d) = m * 2 ^ e := by
    rw [zpow_sub₀ (by norm_num), zpow_natCast]
    push_cast
    field_simp
  have first := targetExponent_eq positive canonical (by positivity) scaled
  have second := targetExponent_eq positive canonical positive rfl
  have shift : (e - (e - d)).toNat = d := by omega
  have place : e - d + (d : Int) = e := by omega
  have still : (e - e).toNat = 0 := by omega
  have none : (⟨m, false, false⟩ : ExtendedMantissa) >>> 0 = ⟨m, false, false⟩ := rfl
  simp only [roundWithAccuracy, shiftToTargetExponent, shiftToExponent, first, shift,
    ExtendedMantissa.ofMantissaAndAccuracy, shiftRight_scaled, place,
    ExtendedMantissa.roundedMantissa, ExtendedMantissa.accuracy, Accuracy.roundToNearestEven,
    second, still, none]
  rw [dif_neg positive.ne']
  simp

/-- Arithmetic rounds the value of a number to that number. -/
theorem round_of_isCanonical (positive : 0 < m) (canonical : IsCanonical m e) (s : Sign)
    (same : (m' : ℚ) * 2 ^ e' = m * 2 ^ e) :
    Float.Model.UnpackedFloat.round Float.Model.Format.binary64 s m' e' =
      .finite s m e positive := by
  have value : (0 : ℚ) < m * 2 ^ e := mul_pos (by exact_mod_cast positive) (by positivity)
  have positive' : 0 < m' := by
    rw [← same] at value
    exact_mod_cast pos_of_mul_pos_left value (by positivity)
  have target := targetExponent_eq positive canonical positive' same
  have split : m' <<< (e' - e).toNat = m * 2 ^ (e - e').toNat := by
    have up : ((e' - e).toNat : Int) = e' - min e e' := by omega
    have down : ((e - e').toNat : Int) = e - min e e' := by omega
    have cast : (m' : ℚ) * 2 ^ (e' - e).toNat = m * 2 ^ (e - e').toNat := by
      rw [← zpow_natCast, ← zpow_natCast, up, down, zpow_sub₀ (by norm_num),
        zpow_sub₀ (by norm_num), ← mul_div_assoc, ← mul_div_assoc, same]
    rw [Nat.shiftLeft_eq]
    exact_mod_cast cast
  have place : e' - ((e' - e).toNat : Int) = e - ((e - e').toNat : Nat) := by omega
  simp only [Float.Model.UnpackedFloat.round, target, decreaseExponent, split, place]
  exact roundWithAccuracy_of_isCanonical positive canonical s _

end Arithmetic

section Reading

variable {m num den : Nat} {e : Int}

theorem roundQuotient_mul {m d : Nat} (positive : 0 < d) :
    Number.roundQuotient (m * d) d = m := by
  simp only [Number.roundQuotient, Nat.mul_div_cancel _ positive, Nat.mul_mod_left]
  simp [positive.ne]

/-- A quotient that is the value of a number is read as that number. -/
theorem nearestBits_of_isCanonical (positive : 0 < m) (canonical : IsCanonical m e)
    (finite : m + (e + 1074).toNat * Number.fieldUnit < Number.infinityBits) (hden : 0 < den)
    (same : (num : ℚ) = m * 2 ^ e * den) :
    Number.nearestBits num den = m + (e + 1074).toNat * Number.fieldUnit := by
  have value : (0 : ℚ) < m * 2 ^ e := mul_pos (by exact_mod_cast positive) (by positivity)
  have hden' : (0 : ℚ) < den := by exact_mod_cast hden
  have hnum : 0 < num := by
    have : (0 : ℚ) < num := same ▸ mul_pos value hden'
    exact_mod_cast this
  have quotient : (num : ℚ) / den = m * 2 ^ e := by
    rw [same, mul_div_cancel_right₀ _ hden'.ne']
  have exponent : max (Number.floorLog2 num den - 52) (-1074) = e := by
    rw [floorLog2_eq_log hnum hden, quotient, canonical.exponent_eq positive]
  have scaled : num * 2 ^ (-e).toNat = m * (den * 2 ^ e.toNat) := by
    have cast : ((num * 2 ^ (-e).toNat : Nat) : ℚ) = ((m * (den * 2 ^ e.toNat) : Nat) : ℚ) := by
      push_cast
      rw [same, zpow_toNat_div two_ne_zero]
      field_simp
    exact_mod_cast cast
  rw [Number.nearestBits, if_neg hnum.ne', exponent]
  simp only [Nat.pow_eq]
  rw [scaled, roundQuotient_mul (by positivity), min_eq_right finite.le]

end Reading

end Pseudocode
