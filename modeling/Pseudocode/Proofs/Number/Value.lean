import Mathlib
import Pseudocode.Proofs.Number.Rounding

/-!
# The value of a number

A finite number is a rational number, `± significand · 2 ^ exponent`, and numbers are compared as
their values are. A natural number up to two to the power of 53 is the value of a number, so up to
there a check against a bound that was made a number is a check against the bound itself.

The representation is unique but for the sign of zero: of two significands with different exponents,
the one with the larger exponent has its highest bit set. That is why comparing exponents first and
significands second compares values.
-/

namespace Pseudocode

open Float.Model Float.Model.UnpackedFloat

namespace Number

/-- The rational number that a finite number is. -/
def value? (x : Number) : Option ℚ :=
  if x.isFiniteNumber then
    some ((if x.isNegative then -1 else 1) * (x.significand * 2 ^ x.exponent))
  else none

end Number

section Order

variable {m m' : Nat} {e e' : Int}

theorem scaled_lt_of_lt (bound : m < 9007199254740992) (normal : 4503599627370496 ≤ m')
    (lt : e < e') : (m : ℚ) * 2 ^ e < m' * 2 ^ e' := by
  calc (m : ℚ) * 2 ^ e
    _ < 9007199254740992 * 2 ^ e := by
      have cast : (m : ℚ) < 9007199254740992 := by exact_mod_cast bound
      exact mul_lt_mul_of_pos_right cast (zpow_pos (by norm_num) e)
    _ = 4503599627370496 * 2 ^ (e + 1) := by
      rw [zpow_add_one₀ (by norm_num)]
      ring
    _ ≤ m' * 2 ^ e' := by
      have cast : (4503599627370496 : ℚ) ≤ m' := by exact_mod_cast normal
      have powers : (2 : ℚ) ^ (e + 1) ≤ 2 ^ e' := zpow_le_zpow_right₀ (by norm_num) lt
      exact mul_le_mul cast powers (zpow_pos (by norm_num) _).le (Nat.cast_nonneg m')

/-- Exponents first and significands second is the order of the values. -/
theorem compare_then_eq (h : IsCanonical m e) (h' : IsCanonical m' e') :
    (compare e e').then (compare m m') = compare ((m : ℚ) * 2 ^ e) (m' * 2 ^ e') := by
  rcases lt_trichotomy e e' with lt | rfl | gt
  · have value : (m : ℚ) * 2 ^ e < m' * 2 ^ e' :=
      scaled_lt_of_lt h.bound (h'.normal.resolve_left (by have := h.least; omega)) lt
    rw [compare_lt_iff_lt.2 lt, compare_lt_iff_lt.2 value]
    rfl
  · have positive : (0 : ℚ) < 2 ^ e := zpow_pos (by norm_num) e
    rw [compare_eq_iff_eq.2 rfl]
    change compare m m' = _
    rcases lt_trichotomy m m' with lt | rfl | gt
    · have value : (m : ℚ) * 2 ^ e < m' * 2 ^ e :=
        mul_lt_mul_of_pos_right (by exact_mod_cast lt) positive
      rw [compare_lt_iff_lt.2 lt, compare_lt_iff_lt.2 value]
    · rw [compare_eq_iff_eq.2 rfl, compare_eq_iff_eq.2 rfl]
    · have value : (m' : ℚ) * 2 ^ e < m * 2 ^ e :=
        mul_lt_mul_of_pos_right (by exact_mod_cast gt) positive
      rw [compare_gt_iff_gt.2 gt, compare_gt_iff_gt.2 value]
  · have value : (m' : ℚ) * 2 ^ e' < m * 2 ^ e :=
      scaled_lt_of_lt h'.bound (h.normal.resolve_left (by have := h'.least; omega)) gt
    rw [compare_gt_iff_gt.2 gt, compare_gt_iff_gt.2 value]
    rfl

end Order

namespace Number

variable {x y : Number} {a b : ℚ}

/-- The model of a number with a value is a zero, and so is the value, or it has the significand and
the exponent of the number, and the value has its sign. -/
theorem unpack_of_value? (h : x.value? = some a) :
    (a = 0 ∧ ∃ s, x.toModel.unpack = .zero s) ∨
      ∃ m e pos, IsCanonical m e ∧ ((x.toModel.unpack = .finite .positive m e pos ∧ a = m * 2 ^ e) ∨
        (x.toModel.unpack = .finite .negative m e pos ∧ a = -(m * 2 ^ e))) := by
  rw [value?] at h
  split at h
  · next finite =>
    obtain rfl := Option.some.inj h
    rcases unpack_of_finite finite with ⟨zero, unpacked⟩ | ⟨pos, unpacked⟩
    · refine .inl ⟨?_, _, unpacked⟩
      rw [zero, Nat.cast_zero, zero_mul, mul_zero]
    · refine .inr ⟨_, _, pos, x.isCanonical, ?_⟩
      rw [sign] at unpacked
      cases negative : x.isNegative with
      | true =>
        rw [negative, if_pos rfl] at unpacked
        exact .inr ⟨unpacked, by rw [if_pos rfl, neg_one_mul]⟩
      | false =>
        rw [negative, if_neg Bool.false_ne_true] at unpacked
        exact .inl ⟨unpacked, by rw [if_neg Bool.false_ne_true, one_mul]⟩
  · cases h

/-- Numbers are compared as their values are. -/
theorem compare_unpack (hx : x.value? = some a) (hy : y.value? = some b) :
    x.toModel.unpack.compare y.toModel.unpack = some (compare a b) := by
  have scaled {m : Nat} {e : Int} (pos : 0 < m) : (0 : ℚ) < m * 2 ^ e :=
    mul_pos (Nat.cast_pos.2 pos) (zpow_pos (by norm_num) e)
  rcases unpack_of_value? hx with ⟨rfl, s, ux⟩ | ⟨m, e, pos, canonical, ⟨ux, rfl⟩ | ⟨ux, rfl⟩⟩
  · rcases unpack_of_value? hy with
      ⟨rfl, s', uy⟩ | ⟨m', e', pos', canonical', ⟨uy, rfl⟩ | ⟨uy, rfl⟩⟩
    · rw [ux, uy, compare_eq_iff_eq.2 rfl]
      rfl
    · rw [ux, uy, compare_lt_iff_lt.2 (scaled pos')]
      rfl
    · rw [ux, uy, compare_gt_iff_gt.2 (neg_lt_zero.2 (scaled pos'))]
      rfl
  · rcases unpack_of_value? hy with
      ⟨rfl, s', uy⟩ | ⟨m', e', pos', canonical', ⟨uy, rfl⟩ | ⟨uy, rfl⟩⟩
    · rw [ux, uy, compare_gt_iff_gt.2 (scaled pos)]
      rfl
    · rw [ux, uy, ← compare_then_eq canonical canonical']
      rfl
    · rw [ux, uy, compare_gt_iff_gt.2 ((neg_lt_zero.2 (scaled pos')).trans (scaled pos))]
      rfl
  · rcases unpack_of_value? hy with
      ⟨rfl, s', uy⟩ | ⟨m', e', pos', canonical', ⟨uy, rfl⟩ | ⟨uy, rfl⟩⟩
    · rw [ux, uy, compare_lt_iff_lt.2 (neg_lt_zero.2 (scaled pos))]
      rfl
    · rw [ux, uy, compare_lt_iff_lt.2 ((neg_lt_zero.2 (scaled pos)).trans (scaled pos'))]
      rfl
    · have swapped : compare (-((m : ℚ) * 2 ^ e)) (-(m' * 2 ^ e')) =
          (compare ((m : ℚ) * 2 ^ e) (m' * 2 ^ e')).swap := by
        rcases lt_trichotomy ((m : ℚ) * 2 ^ e) (m' * 2 ^ e') with lt | same | gt
        · rw [compare_lt_iff_lt.2 lt, compare_gt_iff_gt.2 (neg_lt_neg lt)]
          rfl
        · rw [same, compare_eq_iff_eq.2 rfl, compare_eq_iff_eq.2 rfl]
          rfl
        · rw [compare_gt_iff_gt.2 gt, compare_lt_iff_lt.2 (neg_lt_neg gt)]
          rfl
      rw [ux, uy, swapped, ← compare_then_eq canonical canonical']
      rfl

theorem lt_iff_compare : x < y ↔ x.toModel.unpack.compare y.toModel.unpack = some .lt :=
  decide_eq_true_iff.trans beq_iff_eq

theorem lt_iff (hx : x.value? = some a) (hy : y.value? = some b) : x < y ↔ a < b := by
  rw [lt_iff_compare, compare_unpack hx hy, Option.some.injEq, compare_lt_iff_lt]

theorem beq_iff (hx : x.value? = some a) (hy : y.value? = some b) : (x == y) = true ↔ a = b := by
  change (x.toModel.unpack.compare y.toModel.unpack == some .eq) = true ↔ _
  rw [compare_unpack hx hy, beq_iff_eq, Option.some.injEq, compare_eq_iff_eq]

section Making

variable {m : Nat} {e : Int} {negative : Bool}

/-- The number that is made from a significand and an exponent has these. -/
theorem fields_ofMagnitude (canonical : IsCanonical m e)
    (finite : m + (e + 1074).toNat * fieldUnit < infinityBits) :
    (ofMagnitude negative (m + (e + 1074).toNat * fieldUnit)).significand = m ∧
      (ofMagnitude negative (m + (e + 1074).toNat * fieldUnit)).exponent = e := by
  have magnitude : (ofMagnitude negative (m + (e + 1074).toNat * fieldUnit)).magnitudeBits =
      m + (e + 1074).toNat * fieldUnit := magnitudeBits_ofMagnitude finite
  generalize ofMagnitude negative (m + (e + 1074).toNat * fieldUnit) = x at magnitude
  have bound := canonical.bound
  have least := canonical.least
  rw [fieldUnit] at magnitude
  rw [significand_eq, exponent_eq, significandField, exponentField, magnitude, fieldUnit]
  rcases canonical.normal with rfl | normal
  · split
    · omega
    · omega
  · split
    · omega
    · omega

theorem value?_ofMagnitude (canonical : IsCanonical m e)
    (finite : m + (e + 1074).toNat * fieldUnit < infinityBits) :
    (ofMagnitude negative (m + (e + 1074).toNat * fieldUnit)).value? =
      some ((if negative then -1 else 1) * ((m : ℚ) * 2 ^ e)) := by
  have isFinite : (ofMagnitude negative
      (m + (e + 1074).toNat * fieldUnit)).isFiniteNumber = true := by
    rw [isFiniteNumber, magnitudeBits_ofMagnitude finite]
    exact decide_eq_true finite
  obtain ⟨significand, exponent⟩ := @fields_ofMagnitude m e negative canonical finite
  rw [value?, if_pos isFinite, isNegative_ofMagnitude finite, significand, exponent]

theorem value?_ofMagnitude_zero : (ofMagnitude negative 0).value? = some 0 := by
  have value := @value?_ofMagnitude 0 (-1074) negative
    ⟨by decide, Int.le_refl _, .inl rfl⟩ (by decide)
  rwa [Nat.cast_zero, zero_mul, mul_zero] at value

end Making

/-- A natural number up to two to the power of 53 has a significand and an exponent. -/
theorem exists_isCanonical {n : Nat} (positive : 0 < n) (small : n ≤ 9007199254740992) :
    ∃ m e, 0 < m ∧ IsCanonical m e ∧ m + (e + 1074).toNat * fieldUnit < infinityBits ∧
      (n : ℚ) = m * 2 ^ e := by
  rcases small.lt_or_eq with small | rfl
  · have log : n.log2 ≤ 52 := by
      have below : n.log2 < 53 := (Nat.log2_lt positive.ne').2 small
      omega
    have unit : 2 ^ n.log2 * 2 ^ (52 - n.log2) = 4503599627370496 := by
      rw [← pow_add, Nat.add_sub_cancel' log]
      rfl
    have lower : 4503599627370496 ≤ n * 2 ^ (52 - n.log2) := by
      rw [← unit]
      exact Nat.mul_le_mul_right _ (Nat.log2_self_le positive.ne')
    have upper : n * 2 ^ (52 - n.log2) < 9007199254740992 := by
      calc n * 2 ^ (52 - n.log2)
        _ < 2 ^ (n.log2 + 1) * 2 ^ (52 - n.log2) :=
          Nat.mul_lt_mul_of_pos_right Nat.lt_log2_self (Nat.two_pow_pos _)
        _ = 9007199254740992 := by
          rw [pow_succ', mul_assoc, unit, Nat.two_mul]
    refine ⟨n * 2 ^ (52 - n.log2), -((52 - n.log2 : Nat) : Int), by positivity,
      ⟨upper, by omega, .inr lower⟩, ?_, ?_⟩
    · rw [fieldUnit, infinityBits]
      omega
    · push_cast
      rw [mul_assoc, zpow_neg, zpow_natCast, mul_inv_cancel₀ (by positivity), mul_one]
  · exact ⟨4503599627370496, 1, by decide, ⟨by decide, by decide, .inr (Nat.le_refl _)⟩,
      by decide, by norm_num⟩

/-- An integer up to two to the power of 53 is the value of the number it is made. -/
theorem value?_ofInt {i : Int} (small : i.natAbs ≤ 9007199254740992) :
    (ofInt i).value? = some (i : ℚ) := by
  rcases Nat.eq_zero_or_pos i.natAbs with zero | positive
  · obtain rfl := Int.natAbs_eq_zero.1 zero
    exact value?_ofMagnitude_zero
  · obtain ⟨m, e, pos, canonical, finite, same⟩ := exists_isCanonical positive small
    have bits := nearestBits_of_isCanonical pos canonical finite one_pos
      (by rw [same, Nat.cast_one, mul_one])
    rw [ofInt, bits, value?_ofMagnitude canonical finite, ← same, Nat.cast_natAbs]
    simp only [decide_eq_true_eq, Option.some.injEq]
    split
    · next negative => rw [abs_of_neg negative, Int.cast_neg, neg_one_mul, neg_neg]
    · next positive => rw [abs_of_nonneg (not_lt.1 positive), one_mul]

theorem value?_ofNat {n : Nat} (small : n ≤ 9007199254740992) :
    (ofNat n).value? = some (n : ℚ) := value?_ofInt (i := n) small

theorem zero_eq_ofNat : (0 : Number) = ofNat 0 := by decide +kernel

theorem one_eq_ofNat : (1 : Number) = ofNat 1 := by decide +kernel

theorem value?_zero : (0 : Number).value? = some ((0 : Nat) : ℚ) := by
  rw [zero_eq_ofNat]
  exact value?_ofNat (by decide)

theorem value?_one : (1 : Number).value? = some ((1 : Nat) : ℚ) := by
  rw [one_eq_ofNat]
  exact value?_ofNat (by decide)

/-- The value of a finite number without its sign. -/
def magnitude (x : Number) : ℚ := x.significand * 2 ^ x.exponent

/-- The exponent scales the significand up, or it counts the binary digits after the point. -/
theorem magnitude_cases (x : Number) :
    (∃ k : Nat, x.magnitude = (x.significand * 2 ^ k : Nat) ∧
      x.natPart = x.significand * 2 ^ k ∧ x.hasFraction = false) ∨
    ∃ k : Nat, x.magnitude * (2 ^ k : Nat) = x.significand ∧ x.natPart = x.significand / 2 ^ k ∧
      (x.hasFraction = false ↔ 2 ^ k ∣ x.significand) := by
  rcases le_or_gt 0 x.exponent with upward | downward
  · obtain ⟨k, exponent⟩ := Int.eq_ofNat_of_zero_le upward
    refine .inl ⟨k, ?_, ?_, ?_⟩
    · rw [magnitude, exponent, zpow_natCast]
      push_cast
      rfl
    · rw [natPart, if_pos upward, exponent]
      rfl
    · rw [hasFraction, decide_eq_false (not_lt.2 upward), Bool.false_and]
  · obtain ⟨k, digits⟩ := Int.eq_ofNat_of_zero_le (neg_nonneg.2 downward.le)
    have exponent : x.exponent = -k := by omega
    refine .inr ⟨k, ?_, ?_, ?_⟩
    · rw [magnitude, exponent, zpow_neg, zpow_natCast, Nat.cast_pow, Nat.cast_ofNat, mul_assoc,
        inv_mul_cancel₀ (by positivity), mul_one]
    · rw [natPart, if_neg (not_le.2 downward), digits]
      rfl
    · rw [hasFraction, decide_eq_true downward, Bool.true_and, digits, bne_eq_false_iff_eq,
        Nat.dvd_iff_mod_eq_zero]
      rfl

/-- A number that is a natural number is its integer part and has no digits after the point. -/
theorem natPart_of_magnitude {n : Nat} (h : x.magnitude = n) :
    x.natPart = n ∧ x.hasFraction = false := by
  rcases x.magnitude_cases with ⟨k, value, part, whole⟩ | ⟨k, scaled, part, whole⟩
  · rw [value, Nat.cast_inj] at h
    exact ⟨part.trans h, whole⟩
  · rw [h, ← Nat.cast_mul, Nat.cast_inj] at scaled
    rw [whole, part, ← scaled]
    exact ⟨Nat.mul_div_cancel _ (Nat.two_pow_pos k), Dvd.intro_left n rfl⟩

/-- A number without digits after the point is its integer part. -/
theorem magnitude_of_whole (h : x.hasFraction = false) : x.magnitude = x.natPart := by
  rcases x.magnitude_cases with ⟨k, value, part, _⟩ | ⟨k, scaled, part, whole⟩
  · rw [value, part]
  · have pos : ((2 ^ k : Nat) : ℚ) ≠ 0 := Nat.cast_ne_zero.2 (Nat.two_pow_pos k).ne'
    refine mul_right_cancel₀ pos ?_
    rw [scaled, part, ← Nat.cast_mul, Nat.div_mul_cancel (whole.1 h)]

/-- The integer part is not above the magnitude. -/
theorem natPart_le_magnitude (x : Number) : (x.natPart : ℚ) ≤ x.magnitude := by
  rcases x.magnitude_cases with ⟨k, value, part, _⟩ | ⟨k, scaled, part, _⟩
  · rw [value, part]
  · have pos : (0 : ℚ) < (2 ^ k : Nat) := Nat.cast_pos.2 (Nat.two_pow_pos k)
    refine le_of_mul_le_mul_right ?_ pos
    rw [scaled, part, ← Nat.cast_mul]
    exact Nat.cast_le.2 (Nat.div_mul_le_self _ _)

/-- The integer part of a number with digits after the point is small. -/
theorem natPart_lt (fraction : x.hasFraction = true) : x.natPart < 9007199254740992 := by
  rcases x.magnitude_cases with ⟨k, _, _, whole⟩ | ⟨k, _, part, _⟩
  · rw [whole] at fraction
    cases fraction
  · rw [part]
    exact (Nat.div_le_self _ _).trans_lt x.isCanonical.bound

theorem value?_eq (finite : x.isFiniteNumber = true) :
    x.value? = some (if x.isNegative then -x.magnitude else x.magnitude) := by
  rw [value?, if_pos finite, magnitude]
  split
  · rw [neg_one_mul]
  · rw [one_mul]

theorem magnitude_nonneg (x : Number) : 0 ≤ x.magnitude :=
  mul_nonneg (Nat.cast_nonneg _) (zpow_pos (by norm_num) _).le

/-- A value that is not negative is the magnitude. -/
theorem value?_eq_magnitude (h : x.value? = some a) (nonneg : 0 ≤ a) :
    x.isFiniteNumber = true ∧ x.magnitude = a := by
  have finite : x.isFiniteNumber = true := by
    by_contra infinite
    rw [value?, if_neg infinite] at h
    cases h
  rw [value?_eq finite, Option.some.injEq] at h
  refine ⟨finite, ?_⟩
  split at h
  · have zero : x.magnitude = 0 := le_antisymm (neg_nonneg.1 (h ▸ nonneg)) x.magnitude_nonneg
    rw [← h, zero, neg_zero]
  · exact h

/-- A number that is a natural number is equal to its integer part. -/
theorem isIntegral_of_value? {n : Nat} (h : x.value? = some (n : ℚ)) :
    x.isIntegral = true ∧ x.natPart = n := by
  obtain ⟨finite, magnitude⟩ := value?_eq_magnitude h (Nat.cast_nonneg n)
  obtain ⟨part, whole⟩ := natPart_of_magnitude magnitude
  refine ⟨?_, part⟩
  rw [isIntegral, trunc, whole, Bool.and_false, if_neg Bool.false_ne_true]
  exact (beq_iff h h).2 rfl

/-- Where a number that is not negative is equal to its integer part, that is its value. -/
theorem value_eq_natPart (h : x.value? = some a) (nonneg : 0 ≤ a)
    (integral : x.isIntegral = true) : a = x.natPart := by
  obtain ⟨finite, magnitude⟩ := value?_eq_magnitude h nonneg
  cases fraction : x.hasFraction with
  | false => rw [← magnitude, magnitude_of_whole fraction]
  | true =>
    have positive : x.isNegative = false := by
      by_contra negative
      rw [value?_eq finite, if_pos (Bool.eq_true_of_not_eq_false negative), Option.some.injEq] at h
      have zero : x.magnitude = (0 : Nat) := by
        rw [Nat.cast_zero]
        exact le_antisymm (neg_nonneg.1 (h ▸ nonneg)) x.magnitude_nonneg
      rw [(natPart_of_magnitude zero).2] at fraction
      cases fraction
    rw [isIntegral, trunc, finite, fraction, Bool.and_true, if_pos rfl, signed, positive,
      if_neg Bool.false_ne_true, beq_iff h (value?_ofNat (natPart_lt fraction).le)] at integral
    exact integral

/-- What is neither an infinity nor no number has a value. -/
theorem exists_value?_of_between {low high : Number} {b c : ℚ} (hlow : low.value? = some b)
    (hhigh : high.value? = some c) (number : x.isNaN = false) (above : ¬ x < low)
    (below : ¬ high < x) : ∃ a, x.value? = some a := by
  cases finite : x.isFiniteNumber with
  | true => exact ⟨_, value?_eq finite⟩
  | false =>
    rcases unpack_of_not_finite finite with ⟨s, infinite⟩ | none
    · cases s with
      | positive =>
        refine absurd ?_ below
        rw [lt_iff_compare, infinite]
        rcases unpack_of_value? hhigh with ⟨_, _, h⟩ | ⟨_, _, _, _, ⟨h, _⟩ | ⟨h, _⟩⟩
        · rw [h]; rfl
        · rw [h]; rfl
        · rw [h]; rfl
      | negative =>
        refine absurd ?_ above
        rw [lt_iff_compare, infinite]
        rcases unpack_of_value? hlow with ⟨_, _, h⟩ | ⟨_, _, _, _, ⟨h, _⟩ | ⟨h, _⟩⟩
        · rw [h]; rfl
        · rw [h]; rfl
        · rw [h]; rfl
    · rw [Float.isNaN, Float.Model.isNaN, none] at number
      cases number

/-- What is no number is not equal to its integer part. -/
theorem isNaN_of_isIntegral (integral : x.isIntegral = true) : x.isNaN = false := by
  by_contra isNaN
  rw [Bool.not_eq_false, Float.isNaN, Float.Model.isNaN] at isNaN
  have model : x.toModel.unpack = .notANumber := by
    generalize x.toModel.unpack = u at isNaN
    cases u with
    | notANumber => rfl
    | _ => cases isNaN
  have infinite : x.isFiniteNumber = false := by
    by_contra finite
    rcases unpack_of_finite (Bool.eq_true_of_not_eq_false finite) with ⟨-, other⟩ | ⟨_, other⟩
    · rw [model] at other
      cases other
    · rw [model] at other
      cases other
  rw [isIntegral, trunc, infinite, Bool.false_and, if_neg Bool.false_ne_true] at integral
  change (x.toModel.unpack.compare x.toModel.unpack == some .eq) = true at integral
  rw [model] at integral
  cases integral

/-- A number passes for an integer between two bounds exactly if it is one. -/
theorem isIntegral_between_iff {least most : Nat} (low : least ≤ 9007199254740992)
    (high : most ≤ 9007199254740992) :
    (x.isIntegral = true ∧ ¬ x < ofNat least ∧ ¬ ofNat most < x) ↔
      ∃ n : Nat, x.value? = some (n : ℚ) ∧ least ≤ n ∧ n ≤ most := by
  have leastValue := value?_ofNat low
  have mostValue := value?_ofNat high
  constructor
  · rintro ⟨integral, above, below⟩
    obtain ⟨a, value⟩ := exists_value?_of_between leastValue mostValue
      (isNaN_of_isIntegral integral) above below
    rw [lt_iff value leastValue, not_lt] at above
    rw [lt_iff mostValue value, not_lt] at below
    obtain rfl := value_eq_natPart value ((Nat.cast_nonneg least).trans above) integral
    exact ⟨x.natPart, value, Nat.cast_le.1 above, Nat.cast_le.1 below⟩
  · rintro ⟨n, value, above, below⟩
    rw [lt_iff value leastValue, not_lt, lt_iff mostValue value, not_lt]
    exact ⟨(isIntegral_of_value? value).1, Nat.cast_le.2 above, Nat.cast_le.2 below⟩

end Number

end Pseudocode
