import Mathlib
import Pseudocode.Number.Shortest
import Pseudocode.Proofs.Number.Rounding

/-!
# The decimal that is printed is read back

The search for a decimal takes only candidates that are read back, and it falls back on the decimal
with all digits. This one is the value itself, so it is read back as well: its size is within the
range where reading computes a quotient, and the quotient is the value of a number.
-/

namespace Pseudocode

namespace Number

/-- The exponent is above the significand in the bits of a number. -/
theorem magnitudeBits_eq (x : Number) :
    x.significand + (x.exponent + 1074).toNat * fieldUnit = x.magnitudeBits := by
  rw [significand_eq, exponent_eq, exponentField, significandField]
  have parts := Nat.div_add_mod' x.magnitudeBits fieldUnit
  generalize x.magnitudeBits / fieldUnit = field at parts
  split
  · next zero =>
    have biased : (((max field 1 : Nat) : Int) - 1075 + 1074).toNat = 0 := by omega
    rw [zero, zero_mul, zero_add] at parts
    rw [biased, zero_mul, add_zero, parts]
  · next positive =>
    have biased : (((max field 1 : Nat) : Int) - 1075 + 1074).toNat + 1 = field := by omega
    rw [← biased, Nat.succ_mul] at parts
    omega

section Size

variable {n l : Nat}

theorem pow_le_of_length_toDigits (positive : 0 < n) :
    10 ^ ((Nat.toDigits 10 n).length - 1) ≤ n := by
  have some : 0 < (Nat.toDigits 10 n).length := Nat.length_toDigits_pos
  by_contra less
  have few : 0 < (Nat.toDigits 10 n).length - 1 := by
    by_contra none
    rw [Nat.eq_zero_of_not_pos none, pow_zero] at less
    exact less positive
  have short := (Nat.length_toDigits_le_iff (by decide) few).2 (not_le.1 less)
  omega

theorem lt_pow_length_toDigits (n : Nat) : n < 10 ^ (Nat.toDigits 10 n).length :=
  (Nat.length_toDigits_le_iff (by decide) Nat.length_toDigits_pos).1 (Nat.le_refl _)

theorem length_toDigits_of_lt (lower : 10 ^ l ≤ n) (upper : n < 10 ^ (l + 1)) :
    (Nat.toDigits 10 n).length = l + 1 := by
  refine Nat.le_antisymm ((Nat.length_toDigits_le_iff (by decide) l.succ_pos).2 upper) ?_
  by_contra short
  have less : n < 10 ^ l := by
    calc n
      _ < 10 ^ (Nat.toDigits 10 n).length := lt_pow_length_toDigits n
      _ ≤ 10 ^ l := Nat.pow_le_pow_right (by decide) (by omega)
  exact absurd lower (not_le.2 less)

/-- Zeros behind the digits are digits. -/
theorem length_toDigits_mul_pow (positive : 0 < n) (k : Nat) :
    (Nat.toDigits 10 (n * 10 ^ k)).length = (Nat.toDigits 10 n).length + k := by
  have some : 0 < (Nat.toDigits 10 n).length := Nat.length_toDigits_pos
  have split : (Nat.toDigits 10 n).length + k = (Nat.toDigits 10 n).length - 1 + k + 1 := by omega
  rw [split]
  refine length_toDigits_of_lt ?_ ?_
  · rw [pow_add]
    exact Nat.mul_le_mul_right _ (pow_le_of_length_toDigits positive)
  · rw [← split, pow_add]
    exact Nat.mul_lt_mul_of_pos_right (lt_pow_length_toDigits n) (by positivity)

end Size

section Decimals

variable {m d : Nat} {e k : Int}

theorem two_zpow_le_of_isCanonical (positive : 0 < m) (canonical : IsCanonical m e) :
    (2 : ℚ) ^ (-1074 : Int) ≤ m * 2 ^ e := by
  calc (2 : ℚ) ^ (-1074 : Int)
    _ ≤ 2 ^ e := zpow_le_zpow_right₀ (by norm_num) canonical.least
    _ ≤ m * 2 ^ e := le_mul_of_one_le_left (by positivity) (by exact_mod_cast positive)

theorem lt_two_zpow_of_isCanonical (canonical : IsCanonical m e)
    (finite : m + (e + 1074).toNat * fieldUnit < infinityBits) :
    (m : ℚ) * 2 ^ e < 2 ^ (1024 : Int) := by
  have top : e ≤ 971 := by
    have least := canonical.least
    rw [fieldUnit, infinityBits] at finite
    rcases canonical.normal with rfl | normal
    · omega
    · omega
  calc (m : ℚ) * 2 ^ e
    _ < 2 ^ (53 : Int) * 2 ^ e := by
      have bound : (m : ℚ) < 2 ^ (53 : Int) := by
        norm_num
        exact canonical.bound
      exact mul_lt_mul_of_pos_right bound (by positivity)
    _ = 2 ^ (53 + e) := (zpow_add₀ (by norm_num) _ _).symm
    _ ≤ 2 ^ (1024 : Int) := zpow_le_zpow_right₀ (by norm_num) (by omega)

/-- A decimal that is the value of a number is within the range that is computed. -/
theorem size_of_isCanonical (positive : 0 < m) (canonical : IsCanonical m e)
    (finite : m + (e + 1074).toNat * fieldUnit < infinityBits)
    (same : (d : ℚ) * 10 ^ k = m * 2 ^ e) :
    0 < d ∧ -400 ≤ k + (Nat.toDigits 10 d).length ∧ k + (Nat.toDigits 10 d).length ≤ 400 := by
  have low := two_zpow_le_of_isCanonical positive canonical
  have high := lt_two_zpow_of_isCanonical canonical finite
  have power : (0 : ℚ) < 10 ^ k := zpow_pos (by norm_num) k
  rw [← same] at low high
  have digits : 0 < d := by
    by_contra none
    rw [Nat.eq_zero_of_not_pos none, Nat.cast_zero, zero_mul] at low
    exact absurd low (not_le.2 (zpow_pos (by norm_num) _))
  refine ⟨digits, ?_, ?_⟩
  · by_contra small
    have below : (d : ℚ) * 10 ^ k < 10 ^ (-401 : Int) := by
      calc (d : ℚ) * 10 ^ k
        _ < 10 ^ ((Nat.toDigits 10 d).length : Int) * 10 ^ k := by
          refine mul_lt_mul_of_pos_right ?_ power
          exact_mod_cast lt_pow_length_toDigits d
        _ = 10 ^ (((Nat.toDigits 10 d).length : Int) + k) := (zpow_add₀ (by norm_num) _ _).symm
        _ ≤ 10 ^ (-401 : Int) := zpow_le_zpow_right₀ (by norm_num) (by omega)
    have powers : (10 : ℚ) ^ (-401 : Int) ≤ 2 ^ (-1074 : Int) := by
      have naturals : 2 ^ 1074 ≤ 10 ^ 401 := by decide +kernel
      have cast : (2 : ℚ) ^ (1074 : Int) ≤ 10 ^ (401 : Int) := by exact_mod_cast naturals
      rw [zpow_neg, zpow_neg]
      exact inv_anti₀ (by positivity) cast
    exact absurd (low.trans_lt below) (not_lt.2 powers)
  · by_contra large
    have above : 10 ^ (400 : Int) ≤ (d : ℚ) * 10 ^ k := by
      calc (10 : ℚ) ^ (400 : Int)
        _ ≤ 10 ^ (((Nat.toDigits 10 d).length - 1 : Nat) + k) :=
          zpow_le_zpow_right₀ (by norm_num) (by omega)
        _ = 10 ^ (((Nat.toDigits 10 d).length - 1 : Nat) : Int) * 10 ^ k :=
          zpow_add₀ (by norm_num) _ _
        _ ≤ d * 10 ^ k := by
          refine mul_le_mul_of_nonneg_right ?_ power.le
          exact_mod_cast pow_le_of_length_toDigits digits
    have powers : (2 : ℚ) ^ (1024 : Int) ≤ 10 ^ (400 : Int) := by
      have naturals : 2 ^ 1024 ≤ 10 ^ 400 := by decide +kernel
      exact_mod_cast naturals
    exact absurd (above.trans_lt high) (not_lt.2 powers)

/-- A decimal that is the value of a number is read as that number. -/
theorem decimalBits_of_isCanonical (positive : 0 < m) (canonical : IsCanonical m e)
    (finite : m + (e + 1074).toNat * fieldUnit < infinityBits)
    (same : (d : ℚ) * 10 ^ k = m * 2 ^ e) :
    decimalBits d k = m + (e + 1074).toNat * fieldUnit := by
  obtain ⟨digits, low, high⟩ := size_of_isCanonical positive canonical finite same
  have inside : ¬ (d = 0 ∨ k + ((Nat.toDigits 10 d).length : Int) < -400) := by omega
  have inside' : ¬ 400 < k + ((Nat.toDigits 10 d).length : Int) := by omega
  simp only [decimalBits, Nat.pow_eq]
  rw [if_neg inside, if_neg inside']
  refine nearestBits_of_isCanonical positive canonical finite (by positivity) ?_
  push_cast
  rw [← same, zpow_toNat_div (by norm_num : (10 : ℚ) ≠ 0) k]
  field_simp

/-- Zeros may be written for a power of ten. -/
theorem decimalBits_mul_pow (positive : 0 < d) (k : Nat) :
    decimalBits (d * 10 ^ k) 0 = decimalBits d k := by
  have some : d * 10 ^ k ≠ 0 := (Nat.mul_pos positive (by positivity)).ne'
  have size : (0 : Int) + (Nat.toDigits 10 (d * 10 ^ k)).length =
      k + (Nat.toDigits 10 d).length := by
    rw [length_toDigits_mul_pow positive]
    push_cast
    ring
  simp [decimalBits, size, some, positive.ne']

end Decimals

section Search

variable {x : Number} {k : Int} {d : Decimal}

theorem roundQuotient_eq (num den : Nat) :
    roundQuotient num den = num / den ∨ roundQuotient num den = num / den + 1 := by
  rw [roundQuotient]
  split
  · exact .inr rfl
  · exact .inl rfl

theorem readsBack_of_onGrid? (h : x.onGrid? k = some d) : x.readsBack d = true := by
  simp only [onGrid?] at h
  split at h
  · next below above =>
    cases h
    rcases roundQuotient_eq (x.asQuotient.1 * Nat.pow 10 (-k).toNat)
      (x.asQuotient.2 * Nat.pow 10 k.toNat) with same | same
    · rw [same, below]
    · rw [same, above]
  · next below _ =>
    cases h
    exact below
  · next _ above =>
    cases h
    exact above
  · cases h

/-- The decimal with all digits is the value. -/
theorem exactDecimal_value (x : Number) :
    (x.exactDecimal.digits : ℚ) * 10 ^ x.exactDecimal.exponent = x.significand * 2 ^ x.exponent := by
  simp only [exactDecimal, Nat.pow_eq]
  rcases le_total 0 x.exponent with upward | downward
  · rw [min_eq_right upward, Int.toNat_of_nonpos (by omega : -x.exponent ≤ 0)]
    push_cast
    rw [mul_one, mul_one, ← zpow_natCast, Int.toNat_of_nonneg upward]
  · have five : (5 : ℚ) ^ (-x.exponent).toNat = 5 ^ (-x.exponent) := by
      rw [← zpow_natCast, Int.toNat_of_nonneg (by omega)]
    rw [min_eq_left downward, Int.toNat_of_nonpos downward]
    push_cast
    rw [mul_one, five, mul_assoc, (by norm_num : (10 : ℚ) = 5 * 2), mul_zpow,
      ← mul_assoc ((5 : ℚ) ^ _), ← zpow_add₀ (by norm_num), neg_add_cancel, zpow_zero, one_mul]

variable (finite : x.isFiniteNumber = true) (positive : 0 < x.significand)
include finite positive

theorem readsBack_exactDecimal : x.readsBack x.exactDecimal = true := by
  have bits : x.magnitudeBits < infinityBits := of_decide_eq_true finite
  rw [← magnitudeBits_eq] at bits
  rw [readsBack, beq_iff_eq, ← magnitudeBits_eq]
  exact decimalBits_of_isCanonical positive x.isCanonical bits x.exactDecimal_value

theorem readsBack_searchGrids (count : Nat) (k : Int) :
    x.readsBack (x.searchGrids count k) = true := by
  induction count generalizing k with
  | zero => exact readsBack_exactDecimal finite positive
  | succ count ih =>
    rw [searchGrids]
    split
    · next found => exact readsBack_of_onGrid? found
    · exact ih (k - 1)

/-- **The shortest decimal of a number is read back as its magnitude.** -/
theorem decimalBits_shortest :
    decimalBits x.shortest.digits x.shortest.exponent = x.magnitudeBits :=
  beq_iff_eq.1 (readsBack_searchGrids finite positive 24 x.gridAbove)

theorem shortest_digits_pos : 0 < x.shortest.digits := by
  by_contra none
  have bits := decimalBits_shortest finite positive
  rw [Nat.eq_zero_of_not_pos none] at bits
  have zero (k : Int) : decimalBits 0 k = 0 := by
    rw [decimalBits, if_pos (.inl rfl)]
  rw [zero, ← magnitudeBits_eq] at bits
  omega

end Search

end Number

end Pseudocode
