import Mathlib
import Pseudocode.Proofs.Number.Value

/-!
# Sums that are numbers

Where the sum of two values is the value of a number, adding gives a number with that value: nothing
is rounded, and the same goes for the difference. The significands are brought to the smaller of
the two exponents, where they are added as integers, and the sum is rounded to itself. So integers
are added and compared as integers as long as they stay within two to the power of 53.
-/

namespace Pseudocode

open Float.Model (UnpackedFloat)
open Float.Model.UnpackedFloat

namespace Number

variable {x y z : Number} {a b : ℚ}

theorem le_iff (hx : x.value? = some a) (hy : y.value? = some b) : x ≤ y ↔ a ≤ b := by
  have compares : x ≤ y ↔ (x.toModel.unpack.compare y.toModel.unpack).any (·.isLE) = true :=
    decide_eq_true_iff
  rw [compares, compare_unpack hx hy, Option.any_some, ← compare_le_iff_le, Ordering.isLE_iff_ne_gt]

/-- The number with a model. -/
def ofUnpacked (u : UnpackedFloat) : Number := Float.ofModel (Float.Model.pack u)

theorem add_eq_ofUnpacked (x y : Number) :
    x + y = ofUnpacked (add .binary64 x.toModel.unpack y.toModel.unpack) := rfl

theorem sub_eq_ofUnpacked (x y : Number) :
    x - y = ofUnpacked (sub .binary64 x.toModel.unpack y.toModel.unpack) := rfl

theorem ofUnpacked_unpack (x : Number) : ofUnpacked x.toModel.unpack = x := Float.ofBits_toBits x

theorem value?_ofUnpacked_of_unpack {u : UnpackedFloat} (model : x.toModel.unpack = u) :
    (ofUnpacked u).value? = x.value? := by
  rw [← model, ofUnpacked_unpack]

/-- A model that is a zero has the value zero. -/
theorem value?_of_unpack_zero {s : Sign} (model : x.toModel.unpack = .zero s) :
    x.value? = some 0 := by
  cases finite : x.isFiniteNumber with
  | true =>
    rcases unpack_of_finite finite with ⟨zero, -⟩ | ⟨pos, other⟩
    · rw [value?, if_pos finite, zero, Nat.cast_zero, zero_mul, mul_zero]
    · rw [model] at other
      cases other
  | false =>
    rcases unpack_of_not_finite finite with ⟨s, other⟩ | other
    · rw [model] at other
      cases other
    · rw [model] at other
      cases other

theorem value?_ofUnpacked_zero (s : Sign) : (ofUnpacked (.zero s)).value? = some 0 :=
  value?_of_unpack_zero unpack_packedZero

/-- A significand that is brought to an exponent below its own stands for the same value. -/
theorem decreaseExponent_scaled {m : Nat} {e least : Int} (below : least ≤ e) :
    ((decreaseExponent m e least).1 : ℚ) * 2 ^ least = m * 2 ^ e := by
  have shift : ((e - least).toNat : Int) = e - least := by omega
  rw [decreaseExponent, Nat.shiftLeft_eq]
  push_cast
  rw [← zpow_natCast, shift, mul_assoc, ← zpow_add₀ (by norm_num), sub_add_cancel]

/-- A significand with a sign is rounded to the number whose value it stands for. -/
theorem value?_normalize {i e : Int} {s : Sign} (hz : z.value? = some ((i : ℚ) * 2 ^ e)) :
    (ofUnpacked (normalize .binary64 i e s)).value? = some ((i : ℚ) * 2 ^ e) := by
  have power : (0 : ℚ) < 2 ^ e := zpow_pos (by norm_num) e
  have scaled {m : Nat} {e : Int} (pos : 0 < m) : (0 : ℚ) < m * 2 ^ e :=
    mul_pos (Nat.cast_pos.2 pos) (zpow_pos (by norm_num) e)
  unfold UnpackedFloat.normalize
  rcases lt_trichotomy i 0 with below | rfl | above
  · have negative : (i : ℚ) * 2 ^ e < 0 := mul_neg_of_neg_of_pos (by exact_mod_cast below) power
    have magnitude : ((-i).toNat : ℚ) = -i := by
      have cast : ((-i).toNat : Int) = -i := Int.toNat_of_nonneg (by omega)
      exact_mod_cast cast
    rw [compare_lt_iff_lt.2 below]
    rcases unpack_of_value? hz with ⟨zero, -⟩ | ⟨m, e', pos, canonical, ⟨-, same⟩ | ⟨model, same⟩⟩
    · exact absurd zero negative.ne
    · exact absurd same (negative.trans (scaled pos)).ne
    · have exact : ((-i).toNat : ℚ) * 2 ^ e = m * 2 ^ e' := by
        rw [magnitude, neg_mul, same, neg_neg]
      dsimp only
      rw [round_of_isCanonical pos canonical _ exact, value?_ofUnpacked_of_unpack model, hz]
  · rw [compare_eq_iff_eq.2 rfl, Int.cast_zero, zero_mul]
    exact value?_ofUnpacked_zero s
  · have positive : 0 < (i : ℚ) * 2 ^ e := mul_pos (by exact_mod_cast above) power
    have magnitude : (i.toNat : ℚ) = i := by
      have cast : (i.toNat : Int) = i := Int.toNat_of_nonneg above.le
      exact_mod_cast cast
    rw [compare_gt_iff_gt.2 above]
    rcases unpack_of_value? hz with ⟨zero, -⟩ | ⟨m, e', pos, canonical, ⟨model, same⟩ | ⟨-, same⟩⟩
    · exact absurd zero positive.ne'
    · have exact : (i.toNat : ℚ) * 2 ^ e = m * 2 ^ e' := by rw [magnitude, same]
      dsimp only
      rw [round_of_isCanonical pos canonical _ exact, value?_ofUnpacked_of_unpack model, hz]
    · exact absurd same ((neg_lt_zero.2 (scaled pos)).trans positive).ne'

/-- The model of a number with a value is a zero, and so is the value, or it has a sign, a
significand and an exponent that make the value. -/
theorem exists_unpack (h : x.value? = some a) :
    (a = 0 ∧ ∃ s, x.toModel.unpack = .zero s) ∨
      ∃ s m e pos, x.toModel.unpack = .finite s m e pos ∧ a = (s.apply m : Int) * 2 ^ e := by
  rcases unpack_of_value? h with zero | ⟨m, e, pos, -, ⟨model, rfl⟩ | ⟨model, rfl⟩⟩
  · exact .inl zero
  · exact .inr ⟨_, m, e, pos, model, by simp [Sign.apply]⟩
  · exact .inr ⟨_, m, e, pos, model, by simp [Sign.apply]⟩

section Scaled

variable {s s' : Sign} {m m' : Nat} {e e' : Int}

/-- A significand with its sign stands for the same value at an exponent below its own. -/
theorem apply_scaled {least : Int} (below : least ≤ e) :
    ((s.apply (decreaseExponent m e least).1 : Int) : ℚ) * 2 ^ least =
      (s.apply m : Int) * 2 ^ e := by
  have scaled := decreaseExponent_scaled (m := m) below
  cases s with
  | positive => simpa [Sign.apply] using scaled
  | negative => simpa [Sign.apply] using scaled

/-- Significands are added at the smaller one of their exponents. -/
theorem scaled_add_scaled : ((s.apply m : Int) : ℚ) * 2 ^ e + (s'.apply m' : Int) * 2 ^ e' =
    (s.apply (decreaseExponent m e (min e e')).1 +
      s'.apply (decreaseExponent m' e' (min e e')).1 : Int) * 2 ^ min e e' := by
  rw [← apply_scaled (min_le_left e e'), ← apply_scaled (min_le_right e e'), ← add_mul]
  push_cast
  rfl

theorem scaled_sub_scaled : ((s.apply m : Int) : ℚ) * 2 ^ e - (s'.apply m' : Int) * 2 ^ e' =
    (s.apply (decreaseExponent m e (min e e')).1 -
      s'.apply (decreaseExponent m' e' (min e e')).1 : Int) * 2 ^ min e e' := by
  rw [← apply_scaled (min_le_left e e'), ← apply_scaled (min_le_right e e'), ← sub_mul]
  push_cast
  rfl

end Scaled

/-- **A sum that is the value of a number is exact.** -/
theorem value?_add (hx : x.value? = some a) (hy : y.value? = some b)
    (hz : z.value? = some (a + b)) : (x + y).value? = some (a + b) := by
  rw [add_eq_ofUnpacked]
  rcases exists_unpack hx with ⟨rfl, s, ux⟩ | ⟨s, m, e, pos, ux, rfl⟩
  · rcases exists_unpack hy with ⟨rfl, s', uy⟩ | ⟨s', m', e', pos', uy, rfl⟩
    · rw [ux, uy, add_zero]
      simp only [add]
      split
      · exact value?_ofUnpacked_zero _
      · exact value?_ofUnpacked_zero _
    · rw [ux, uy, zero_add, ← hy]
      exact value?_ofUnpacked_of_unpack uy
  · rcases exists_unpack hy with ⟨rfl, s', uy⟩ | ⟨s', m', e', pos', uy, rfl⟩
    · rw [ux, uy, add_zero, ← hx]
      exact value?_ofUnpacked_of_unpack ux
    · rw [ux, uy, scaled_add_scaled]
      rw [scaled_add_scaled] at hz
      exact value?_normalize hz

/-- A difference that is the value of a number is exact, if what is subtracted from is not zero. -/
theorem value?_sub (hx : x.value? = some a) (hy : y.value? = some b) (nonzero : a ≠ 0)
    (hz : z.value? = some (a - b)) : (x - y).value? = some (a - b) := by
  rw [sub_eq_ofUnpacked]
  obtain ⟨s, m, e, pos, ux, rfl⟩ := (exists_unpack hx).resolve_left fun zero => nonzero zero.1
  rcases exists_unpack hy with ⟨rfl, s', uy⟩ | ⟨s', m', e', pos', uy, rfl⟩
  · rw [ux, uy, sub_zero, ← hx]
    exact value?_ofUnpacked_of_unpack ux
  · rw [ux, uy, scaled_sub_scaled]
    rw [scaled_sub_scaled] at hz
    exact value?_normalize hz

end Number

end Pseudocode
