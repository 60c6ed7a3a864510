import Mathlib
import Pseudocode.Proofs.Number.Decimal

/-!
# When a decimal is too large

A decimal that is rounded to an infinity is refused. The significand of the largest number is odd,
so half a unit above that number rounding goes up to the infinity, and this is the bound. Values in
the last binade are compared with it where they are rounded, as integers; values in other binades
are far from it on one side or the other.
-/

namespace Pseudocode

namespace Number

/-- Half a unit above the largest number. From here on a value is rounded to an infinity. -/
def overflowBound : ℚ := 2 ^ (1024 : Int) - 2 ^ (970 : Int)

section Quotient

variable {num den k : Nat}

theorem div_le_roundQuotient (num den : Nat) : num / den ≤ roundQuotient num den := by
  rcases roundQuotient_eq num den with same | next
  · exact same.ge
  · omega

theorem roundQuotient_le_of_lt (positive : 0 < den) (less : num < k * den) :
    roundQuotient num den ≤ k := by
  have below : num / den < k := (Nat.div_lt_iff_lt_mul positive).2 less
  rcases roundQuotient_eq num den with same | next
  · omega
  · omega

/-- A quotient is rounded to an odd number or below as long as it is less than a half above it: the
tie goes to the even number that follows. -/
theorem roundQuotient_le_iff (positive : 0 < den) (odd : k % 2 = 1) :
    roundQuotient num den ≤ k ↔ 2 * num < (2 * k + 1) * den := by
  have parts : den * (num / den) + num % den = num := Nat.div_add_mod num den
  have rest : num % den < den := Nat.mod_lt num positive
  rcases lt_trichotomy (num / den) k with less | same | more
  · have product : den * (num / den + 1) ≤ den * k := Nat.mul_le_mul_left den less
    have left : roundQuotient num den ≤ k := by
      rcases roundQuotient_eq num den with same | next
      · omega
      · omega
    refine iff_of_true left ?_
    rw [Nat.mul_succ] at product
    have double : (2 * k + 1) * den = 2 * (den * k) + den := by ring
    omega
  · have double : (2 * k + 1) * den = 2 * (den * (num / den)) + den := by
      rw [same]
      ring
    have tie : roundQuotient num den ≤ k ↔ 2 * (num % den) < den := by
      rw [roundQuotient, same, odd]
      simp only [beq_self_eq_true, Bool.and_true, gt_iff_lt, Bool.or_eq_true, decide_eq_true_eq,
        beq_iff_eq]
      split
      · omega
      · omega
    rw [tie, double]
    omega
  · have product : den * (k + 1) ≤ den * (num / den) := Nat.mul_le_mul_left den more
    have right : ¬ roundQuotient num den ≤ k := by
      have above := div_le_roundQuotient num den
      omega
    refine iff_of_false right ?_
    rw [Nat.mul_succ] at product
    have double : (2 * k + 1) * den = 2 * (den * k) + den := by ring
    omega

end Quotient

section Nearest

variable {num den : Nat}

/-- Where a quotient is rounded, it is compared as a quotient of integers. -/
theorem mul_scaled_lt_iff (num : Nat) (positive : 0 < den) (e : Int) (p q : Nat) :
    p * (num * 2 ^ (-e).toNat) < q * (den * 2 ^ e.toNat) ↔
      (p : ℚ) * (num / den) < q * 2 ^ e := by
  have hden : (0 : ℚ) < den := by exact_mod_cast positive
  rw [zpow_toNat_div two_ne_zero, ← mul_div_assoc, ← mul_div_assoc,
    div_lt_div_iff₀ hden (by positivity), ← Nat.cast_lt (α := ℚ)]
  push_cast
  rw [mul_assoc (p : ℚ), mul_assoc (q : ℚ), mul_comm ((2 : ℚ) ^ e.toNat)]

/-- In units of the last binade the bound is a half above an integer. -/
theorem two_mul_overflowBound : 2 * overflowBound = 18014398509481983 * 2 ^ (971 : Int) := by
  have whole : (2 : ℚ) ^ (1024 : Int) = 2 ^ (53 : Int) * 2 ^ (971 : Int) := by
    rw [← zpow_add₀ (by norm_num)]
    rfl
  have half : 2 * (2 : ℚ) ^ (970 : Int) = 2 ^ (971 : Int) := by
    rw [← zpow_one_add₀ (by norm_num)]
    rfl
  rw [overflowBound, mul_sub, half, whole]
  generalize (2 : ℚ) ^ (971 : Int) = unit
  norm_num
  ring

theorem overflowBound_between :
    (2 : ℚ) ^ (1023 : Int) ≤ overflowBound ∧ overflowBound ≤ 2 ^ (1024 : Int) := by
  have double : 2 * (2 : ℚ) ^ (1023 : Int) = 2 ^ (1024 : Int) := by
    rw [← zpow_one_add₀ (by norm_num)]
    rfl
  have less : (2 : ℚ) ^ (970 : Int) ≤ 2 ^ (1023 : Int) :=
    zpow_le_zpow_right₀ (by norm_num) (by norm_num)
  have positive : (0 : ℚ) < 2 ^ (970 : Int) := zpow_pos (by norm_num) _
  rw [overflowBound]
  generalize (2 : ℚ) ^ (1024 : Int) = whole at double
  generalize (2 : ℚ) ^ (1023 : Int) = half at double less
  generalize (2 : ℚ) ^ (970 : Int) = unit at less positive
  constructor
  · linarith
  · linarith

/-- **A quotient is rounded to a finite number exactly if it is below the bound.** -/
theorem nearestBits_lt_iff (hnum : 0 < num) (hden : 0 < den) :
    nearestBits num den < infinityBits ↔ (num : ℚ) / den < overflowBound := by
  have value : (0 : ℚ) < (num : ℚ) / den :=
    div_pos (by exact_mod_cast hnum) (by exact_mod_cast hden)
  have lower : (2 : ℚ) ^ Int.log 2 ((num : ℚ) / den) ≤ num / den :=
    Int.zpow_log_le_self (by norm_num) value
  have upper : (num : ℚ) / den < 2 ^ (Int.log 2 ((num : ℚ) / den) + 1) :=
    Int.lt_zpow_succ_log_self (by norm_num) _
  simp only [nearestBits, if_neg hnum.ne', floorLog2_eq_log hnum hden, Nat.pow_eq, min_lt_iff,
    lt_irrefl, false_or]
  generalize Int.log 2 ((num : ℚ) / den) = l at lower upper
  -- Only in the last binade does rounding decide. Below it a carry stays finite, above it nothing
  -- is.
  rcases lt_trichotomy l 1023 with less | rfl | more
  · obtain ⟨e, exponent⟩ : ∃ e, e = max (l - 52) (-1074) := ⟨_, rfl⟩
    have within : (num : ℚ) / den < (2 ^ 53 : Nat) * 2 ^ e := by
      calc (num : ℚ) / den
        _ < 2 ^ (l + 1) := upper
        _ ≤ 2 ^ (53 + e) := zpow_le_zpow_right₀ (by norm_num) (by omega)
        _ = (2 ^ 53 : Nat) * 2 ^ e := by
          rw [zpow_add₀ (by norm_num)]
          norm_num
    have rounded : roundQuotient (num * 2 ^ (-e).toNat) (den * 2 ^ e.toNat) ≤ 2 ^ 53 := by
      refine roundQuotient_le_of_lt (by positivity) ?_
      have scaled := (mul_scaled_lt_iff num hden e 1 (2 ^ 53)).2
        (by rwa [Nat.cast_one, one_mul])
      rwa [one_mul] at scaled
    have finite : (num : ℚ) / den < overflowBound :=
      (upper.trans_le (zpow_le_zpow_right₀ (by norm_num) (by omega))).trans_le
        overflowBound_between.1
    rw [← exponent]
    refine iff_of_true ?_ finite
    rw [fieldUnit, infinityBits]
    omega
  · obtain ⟨e, exponent⟩ : ∃ e : Int, e = 971 := ⟨_, rfl⟩
    have rounded : roundQuotient (num * 2 ^ (-e).toNat) (den * 2 ^ e.toNat) ≤ 9007199254740991 ↔
        2 * (num * 2 ^ (-e).toNat) < (2 * 9007199254740991 + 1) * (den * 2 ^ e.toNat) :=
      roundQuotient_le_iff (by positivity) (by decide)
    rw [mul_scaled_lt_iff num hden] at rounded
    have bound : ((2 : Nat) : ℚ) * (num / den) < (2 * 9007199254740991 + 1 : Nat) * 2 ^ e ↔
        (num : ℚ) / den < overflowBound := by
      rw [← mul_lt_mul_iff_right₀ (b := (num : ℚ) / den) (by norm_num : (0 : ℚ) < 2),
        two_mul_overflowBound, exponent]
      rfl
    have last : max ((1023 : Int) - 52) (-1074) = e := by omega
    rw [last, ← bound, ← rounded, fieldUnit, infinityBits]
    omega
  · have exponent : max (l - 52) (-1074) = l - 52 := by omega
    have beyond : ¬ (num : ℚ) / den < (2 ^ 52 : Nat) * 2 ^ (l - 52) := by
      have same : ((2 ^ 52 : Nat) : ℚ) * 2 ^ (l - 52) = 2 ^ l := by
        rw [zpow_sub₀ (by norm_num)]
        norm_num
        field_simp
      rw [same]
      exact not_lt.2 lower
    have least : 2 ^ 52 ≤ num * 2 ^ (-(l - 52)).toNat / (den * 2 ^ (l - 52).toNat) := by
      rw [Nat.le_div_iff_mul_le (by positivity)]
      by_contra less
      refine beyond ?_
      have scaled := (mul_scaled_lt_iff num hden (l - 52) 1 (2 ^ 52)).1
        (by rw [one_mul]; exact not_le.1 less)
      rwa [Nat.cast_one, one_mul] at scaled
    have rounded := least.trans (div_le_roundQuotient _ _)
    have infinite : ¬ (num : ℚ) / den < overflowBound := by
      refine not_lt.2 (overflowBound_between.2.trans (le_trans ?_ lower))
      exact zpow_le_zpow_right₀ (by norm_num) (by omega)
    rw [exponent]
    refine iff_of_false ?_ infinite
    rw [fieldUnit, infinityBits]
    omega

end Nearest

section Decimal

variable {d : Nat} {e : Int}

/-- Where the size of a decimal is looked at, nothing is computed that could be a number, or nothing
that could be beyond the numbers. -/
theorem decimalBits_lt_iff :
    decimalBits d e < infinityBits ↔ (d : ℚ) * 10 ^ e < overflowBound := by
  have power : (0 : ℚ) < 10 ^ e := zpow_pos (by norm_num) e
  rcases Nat.eq_zero_or_pos d with rfl | positive
  · refine iff_of_true (by rw [decimalBits, if_pos (.inl rfl)]; decide) ?_
    rw [Nat.cast_zero, zero_mul]
    exact (zpow_pos (by norm_num) _).trans_le overflowBound_between.1
  by_cases small : e + ((Nat.toDigits 10 d).length : Int) < -400
  · refine iff_of_true (by rw [decimalBits, if_pos (.inr small)]; decide) ?_
    refine lt_of_lt_of_le ?_ overflowBound_between.1
    calc (d : ℚ) * 10 ^ e
      _ < 10 ^ ((Nat.toDigits 10 d).length : Int) * 10 ^ e := by
        refine mul_lt_mul_of_pos_right ?_ power
        exact_mod_cast lt_pow_length_toDigits d
      _ = 10 ^ (((Nat.toDigits 10 d).length : Int) + e) := (zpow_add₀ (by norm_num) _ _).symm
      _ ≤ 10 ^ (0 : Int) := zpow_le_zpow_right₀ (by norm_num) (by omega)
      _ = 2 ^ (0 : Int) := rfl
      _ ≤ 2 ^ (1023 : Int) := zpow_le_zpow_right₀ (by norm_num) (by norm_num)
  by_cases large : 400 < e + ((Nat.toDigits 10 d).length : Int)
  · refine iff_of_false ?_ (not_lt.2 (overflowBound_between.2.trans ?_))
    · rw [decimalBits, if_neg (by omega), if_pos large]
      exact Nat.lt_irrefl _
    · calc (2 : ℚ) ^ (1024 : Int)
        _ ≤ 10 ^ (400 : Int) := by
          have naturals : 2 ^ 1024 ≤ 10 ^ 400 := by decide +kernel
          exact_mod_cast naturals
        _ ≤ 10 ^ (((Nat.toDigits 10 d).length - 1 : Nat) + e) :=
          zpow_le_zpow_right₀ (by norm_num) (by omega)
        _ = 10 ^ (((Nat.toDigits 10 d).length - 1 : Nat) : Int) * 10 ^ e :=
          zpow_add₀ (by norm_num) _ _
        _ ≤ d * 10 ^ e := by
          refine mul_le_mul_of_nonneg_right ?_ power.le
          exact_mod_cast pow_le_of_length_toDigits positive
  · simp only [decimalBits, Nat.pow_eq]
    rw [if_neg (by omega), if_neg large, nearestBits_lt_iff (by positivity) (by positivity),
      zpow_toNat_div (by norm_num : (10 : ℚ) ≠ 0) e]
    push_cast
    rw [mul_div_assoc]

end Decimal

end Number

end Pseudocode
