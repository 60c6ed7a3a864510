import Mathlib
import Pseudocode.Builtin
import Pseudocode.Proofs.Number.Decimal
import Pseudocode.Proofs.Number.Sum
import Pseudocode.Proofs.Text.Characters

/-!
# Parts of texts

The part of a text is cut out between two positions that are clamped to the text first, so any two
numbers give a part: those that are no numbers, infinite, negative or fractional as well. The bounds
of a program count characters from one and include both ends, and only the first of them is moved
down by one. What is left is the usual arithmetic: cutting a text in two loses nothing, and lengths
add up.
-/

namespace Pseudocode

@[simp] theorem Value.toText_text (arrays : Arrays) (t : Text) :
    (Value.text t).toText arrays = t := by
  rw [toText, textWithin]

namespace Number

variable {x : Number}

/-- A natural number that is the value of some number is the value of the number it is made. -/
theorem value?_ofNat_of_value? {n : Nat} (h : x.value? = some (n : ℚ)) :
    (ofNat n).value? = some (n : ℚ) := by
  rcases Nat.eq_zero_or_pos n with rfl | positive
  · exact value?_ofNat (Nat.zero_le _)
  · obtain ⟨finite, magnitude⟩ := value?_eq_magnitude h (Nat.cast_nonneg n)
    have same : (n : ℚ) = x.significand * 2 ^ x.exponent * (1 : Nat) := by
      rw [Nat.cast_one, mul_one]
      exact magnitude.symm
    have bits : x.significand + (x.exponent + 1074).toNat * fieldUnit < infinityBits := by
      rw [magnitudeBits_eq]
      exact of_decide_eq_true finite
    have significand : 0 < x.significand := by
      refine Nat.pos_of_ne_zero fun zero => ?_
      rw [Number.magnitude, zero, Nat.cast_zero, zero_mul] at magnitude
      exact positive.ne (Nat.cast_injective magnitude)
    have nearest := nearestBits_of_isCanonical significand x.isCanonical bits one_pos same
    have made : ofNat n = ofMagnitude false (nearestBits n 1) := rfl
    rw [made, nearest, value?_ofMagnitude x.isCanonical bits, if_neg Bool.false_ne_true, one_mul]
    exact congrArg some magnitude

end Number

namespace Builtin

section Clamping

variable {x : Number} {length k : Nat}

/-- A number that counts some of the characters that are there is not changed. -/
theorem clampIndex_of_value? (hl : (Number.ofNat length).value? = some (length : ℚ))
    (hx : x.value? = some (k : ℚ)) (le : k ≤ length) : clampIndex length x = k := by
  have zero := Number.value?_zero
  have number : x.isNaN = false :=
    Number.isNaN_of_isIntegral (Number.isIntegral_of_value? hx).1
  have above : ¬ x < 0 := by
    rw [Number.lt_iff hx zero, Nat.cast_lt]
    exact Nat.not_lt_zero k
  have below : ¬ Number.ofNat length < x := by
    rw [Number.lt_iff hl hx, Nat.cast_lt]
    exact Nat.not_lt.2 le
  rw [clampIndex, number, decide_eq_false above, Bool.or_self, if_neg Bool.false_ne_true,
    if_neg below]
  exact (Number.isIntegral_of_value? hx).2

/-- No position is behind the end, as long as numbers can tell the positions apart. -/
theorem clampIndex_le (small : length ≤ 9007199254740992) (x : Number) :
    clampIndex length x ≤ length := by
  have hl := Number.value?_ofNat small
  have zero := Number.value?_zero
  rw [clampIndex]
  split
  · exact Nat.zero_le _
  · next within =>
    rw [Bool.or_eq_true, not_or, Bool.not_eq_true, decide_eq_true_eq] at within
    split
    · exact Nat.le_refl _
    · next below =>
      obtain ⟨a, value⟩ := Number.exists_value?_of_between zero hl within.1 within.2 below
      have nonneg : 0 ≤ a := by
        have above := within.2
        rwa [Number.lt_iff value zero, not_lt, Nat.cast_zero] at above
      rw [Number.lt_iff hl value, not_lt] at below
      have magnitude := (Number.value?_eq_magnitude value nonneg).2
      exact Nat.cast_le.1 ((x.natPart_le_magnitude.trans_eq magnitude).trans below)

/-- One less than a number that counts characters from one. -/
theorem value?_sub_one {z : Number} (hx : x.value? = some ((k + 1 : Nat) : ℚ))
    (hz : z.value? = some (k : ℚ)) : (x - 1).value? = some (k : ℚ) := by
  have difference : ((k + 1 : Nat) : ℚ) - ((1 : Nat) : ℚ) = k := by
    push_cast
    ring
  rw [← difference] at hz ⊢
  exact Number.value?_sub hx Number.value?_one (Nat.cast_ne_zero.2 k.succ_ne_zero) hz

end Clamping

section Parts

variable {t : Text} {x y : Number} {i j : Nat}

theorem between_eq {α : Type} (xs : List α) (i j : Nat) :
    between xs i j = (xs.take (max i j)).drop (min i j) := by
  rw [between, List.drop_take]

/-- The characters between any two positions are those between two positions that are there. -/
theorem exists_between (t : Text) (i j : Nat) : ∃ i' j', i' ≤ j' ∧ j' ≤ t.length ∧
    between t.chars i j = (t.chars.take j').drop i' ∧
    (max i j ≤ t.length → i' = min i j ∧ j' = max i j) := by
  rw [between_eq]
  rcases le_total (max i j) t.length with within | beyond
  · exact ⟨min i j, max i j, min_le_max, within, rfl, fun _ => ⟨rfl, rfl⟩⟩
  -- Beyond the end there is nothing to take, so the end does as well as any later position.
  · have whole : t.chars.take (max i j) = t.chars := List.take_of_length_le beyond
    have whole' : t.chars.take t.length = t.chars := List.take_length
    rcases le_total (min i j) t.length with first | none
    · refine ⟨min i j, t.length, first, le_rfl, ?_, fun within => ⟨rfl, within.antisymm' beyond⟩⟩
      rw [whole, whole']
    · refine ⟨t.length, t.length, le_rfl, le_rfl, ?_, fun within => ?_⟩
      · rw [whole, whole', List.drop_eq_nil_of_le none]
        exact (List.drop_length (l := t.chars)).symm
      · exact ⟨none.antisymm (min_le_max.trans within), beyond.antisymm within⟩

/-- Two positions that are there, the first of them not behind the second, are taken as they are. -/
theorem substring_of_value? (hl : (Number.ofNat t.length).value? = some (t.length : ℚ))
    (hx : x.value? = some (i : ℚ)) (hy : y.value? = some (j : ℚ)) (ordered : i ≤ j)
    (within : j ≤ t.length) : substring t x y = Text.ofChars ((t.chars.take j).drop i) := by
  have first : clampIndex t.chars.length x = i := clampIndex_of_value? hl hx (ordered.trans within)
  have last : clampIndex t.chars.length y = j := clampIndex_of_value? hl hy within
  rw [substring, first, last, between_eq, max_eq_right ordered, min_eq_left ordered]

end Parts

section Calls

variable (draws : Nat → Number) (arrays : Arrays) (t : Text)

theorem longitud_text : apply draws arrays .longitud [.text t] =
    pure (.number (Number.ofNat t.length)) := rfl

theorem concatenar_texts (u : Text) : apply draws arrays .concatenar [.text t, .text u] =
    pure (.text (t ++ u)) := by
  have whole : Text.concat ([Value.text t, .text u].map (·.toText arrays)) = t ++ u := by
    simp only [List.map_cons, List.map_nil, Value.toText_text, Text.concat, List.flatMap_cons,
      List.flatMap_nil, List.append_nil]
    rfl
  exact congrArg (fun r => pure (Value.text r)) whole

theorem subcadena_text (x y : Number) :
    apply draws arrays .subcadena [.text t, .number x, .number y] =
      pure (.text (substring t (x - 1) y)) := by
  funext count
  simp only [apply, numberArg, Action.bind_apply, Action.pure_apply, Value.toText_text]

/-- Any two numbers give the characters between two positions of the text, and these are the numbers
after clamping, as long as numbers can tell the positions apart. -/
theorem exists_subcadena (x y : Number) : ∃ i j, i ≤ j ∧ j ≤ t.length ∧
    apply draws arrays .subcadena [.text t, .number x, .number y] =
      pure (.text (Text.ofChars ((t.chars.take j).drop i))) ∧
    (t.length ≤ 9007199254740992 →
      i = min (clampIndex t.length (x - 1)) (clampIndex t.length y) ∧
      j = max (clampIndex t.length (x - 1)) (clampIndex t.length y)) := by
  obtain ⟨i, j, ordered, within, part, exact⟩ :=
    exists_between t (clampIndex t.length (x - 1)) (clampIndex t.length y)
  refine ⟨i, j, ordered, within, ?_, fun small => exact ?_⟩
  · rw [subcadena_text, ← part]
    rfl
  · exact max_le (clampIndex_le small _) (clampIndex_le small _)

variable {t}

section Bounds

variable {x y : Number} {a b : Nat} (small : t.length ≤ 9007199254740992)
  (hx : x.value? = some (a : ℚ)) (hy : y.value? = some (b : ℚ)) (positive : 1 ≤ a)
  (ordered : a ≤ b) (within : b ≤ t.length)
include small hx hy positive ordered within

/-- Bounds that count characters of the text give the characters from the first to the second. -/
theorem subcadena_of_value? : apply draws arrays .subcadena [.text t, .number x, .number y] =
    pure (.text (Text.ofChars ((t.chars.take b).drop (a - 1)))) := by
  obtain ⟨i, rfl⟩ := Nat.exists_eq_add_of_le' positive
  have start := value?_sub_one hx (Number.value?_ofNat (n := i) (by omega))
  have part := substring_of_value? (Number.value?_ofNat small) start hy (by omega) within
  rw [subcadena_text, part, Nat.add_sub_cancel]

/-- The length of a part is how many positions there are from its first bound to its second. -/
theorem longitud_subcadena :
    (do
      let part ← apply draws arrays .subcadena [.text t, .number x, .number y]
      apply draws arrays .longitud [part]) = pure (.number (Number.ofNat (b - a + 1))) := by
  have count : (Text.ofChars ((t.chars.take b).drop (a - 1))).length = b - a + 1 := by
    rw [Text.length, Text.chars_ofChars, List.length_drop, List.length_take_of_le within]
    omega
  rw [subcadena_of_value? draws arrays small hx hy positive ordered within, ← count]
  rfl

end Bounds

/-- A text that is cut behind some of its characters is put together again. -/
theorem concatenar_subcadenas {x y z : Number} {k : Nat} (valid : t.isUtf8 = true)
    (within : k ≤ t.length) (hx : x.value? = some (k : ℚ))
    (hy : y.value? = some ((k + 1 : Nat) : ℚ)) (hz : z.value? = some (t.length : ℚ)) :
    (do
      let first ← apply draws arrays .subcadena [.text t, .number 1, .number x]
      let later ← apply draws arrays .subcadena [.text t, .number y, .number z]
      apply draws arrays .concatenar [first, later]) = pure (.text t) := by
  have hl := Number.value?_ofNat_of_value? hz
  -- Only the first bound of each part is moved down, so the parts meet behind `k` characters.
  have front := value?_sub_one (k := 0) Number.value?_one Number.value?_zero
  have first := substring_of_value? hl front hx (Nat.zero_le k) within
  have later := substring_of_value? hl (value?_sub_one hy hx) hz within le_rfl
  have again : Text.ofChars ((t.chars.take k).drop 0) ++
      Text.ofChars ((t.chars.take t.length).drop k) = t := by
    rw [List.drop_zero, Text.length, List.take_length, ← Text.ofChars_append,
      List.take_append_drop]
    exact beq_iff_eq.1 valid
  rw [subcadena_text, subcadena_text, first, later]
  exact (concatenar_texts draws arrays _ _).trans (congrArg (fun r => pure (Value.text r)) again)

/-- The characters of a UTF-8 text are not changed by what comes behind it. -/
theorem length_append (valid : t.isUtf8 = true) (u : Text) :
    (t ++ u).length = t.length + u.length := by
  have written : Text.ofChars t.chars = t := beq_iff_eq.1 valid
  have chars := Text.chars_ofChars_append t.chars u
  rw [written] at chars
  rw [Text.length, chars, List.length_append]
  rfl

/-- Lengths add up, as numbers too, as long as numbers can tell them apart. -/
theorem ofNat_length_append (valid : t.isUtf8 = true) (u : Text)
    (small : (t ++ u).length ≤ 9007199254740992) :
    (Number.ofNat (t ++ u).length == Number.ofNat t.length + Number.ofNat u.length) = true := by
  have lengths := length_append valid u
  have whole := Number.value?_ofNat small
  rw [lengths, Nat.cast_add] at whole
  have added := Number.value?_add (Number.value?_ofNat (n := t.length) (by omega))
    (Number.value?_ofNat (n := u.length) (by omega)) whole
  rw [lengths]
  exact (Number.beq_iff whole added).2 rfl

end Calls

/-- **Parts of texts.** Whatever the two numbers are, `subcadena` gives the characters between two
positions of the text: the numbers after clamping, in their order. Bounds that count characters of
the text from one give the characters from the first bound to the second, and `longitud` counts
them. A UTF-8 text that is cut behind any number of characters is put together again by
`concatenar`, and its length and that of another text add up. Where lengths are computed with, the
text has at most two to the power of 53 characters, more than any memory holds: beyond that, a
number for each length does not exist. -/
theorem subcadena_splits (draws : Nat → Number) (arrays : Arrays) :
    (∀ (t : Text) (x y : Number), ∃ i j, i ≤ j ∧ j ≤ t.length ∧
      apply draws arrays .subcadena [.text t, .number x, .number y] =
        pure (.text (Text.ofChars ((t.chars.take j).drop i))) ∧
      (t.length ≤ 9007199254740992 →
        i = min (clampIndex t.length (x - 1)) (clampIndex t.length y) ∧
        j = max (clampIndex t.length (x - 1)) (clampIndex t.length y))) ∧
    (∀ (t : Text) (x y : Number) (a b : Nat), t.length ≤ 9007199254740992 →
      x.value? = some (a : ℚ) → y.value? = some (b : ℚ) → 1 ≤ a → a ≤ b → b ≤ t.length →
      apply draws arrays .subcadena [.text t, .number x, .number y] =
          pure (.text (Text.ofChars ((t.chars.take b).drop (a - 1)))) ∧
        (do
          let part ← apply draws arrays .subcadena [.text t, .number x, .number y]
          apply draws arrays .longitud [part]) = pure (.number (Number.ofNat (b - a + 1)))) ∧
    (∀ (t : Text) (x y z : Number) (k : Nat), t.isUtf8 = true → k ≤ t.length →
      x.value? = some (k : ℚ) → y.value? = some ((k + 1 : Nat) : ℚ) →
      z.value? = some (t.length : ℚ) →
      (do
        let first ← apply draws arrays .subcadena [.text t, .number 1, .number x]
        let later ← apply draws arrays .subcadena [.text t, .number y, .number z]
        apply draws arrays .concatenar [first, later]) = pure (.text t)) ∧
    (∀ t u : Text, t.isUtf8 = true → u.isUtf8 = true → (t ++ u).length ≤ 9007199254740992 →
      ∃ l m n,
        (do
          let whole ← apply draws arrays .concatenar [.text t, .text u]
          apply draws arrays .longitud [whole]) = pure (.number l) ∧
        apply draws arrays .longitud [.text t] = pure (.number m) ∧
        apply draws arrays .longitud [.text u] = pure (.number n) ∧ (l == m + n) = true) := by
  refine ⟨exists_subcadena draws arrays, ?_, ?_, ?_⟩
  · intro t x y a b small hx hy positive ordered within
    exact ⟨subcadena_of_value? draws arrays small hx hy positive ordered within,
      longitud_subcadena draws arrays small hx hy positive ordered within⟩
  · intro t x y z k valid within hx hy hz
    exact concatenar_subcadenas draws arrays valid within hx hy hz
  · intro t u valid _ small
    refine ⟨_, _, _, ?_, longitud_text draws arrays t, longitud_text draws arrays u,
      ofNat_length_append valid u small⟩
    rw [concatenar_texts]
    rfl

/-- A text of three characters in four bytes: its last two characters, the text cut behind the first
one and put together, and the text twice. -/
theorem subcadena_splits_accented :
    Text.isUtf8 "año" = true ∧ Text.length "año" = 3 ∧
    (Number.ofNat 1).value? = some ((1 : Nat) : ℚ) ∧
    (Number.ofNat 2).value? = some ((2 : Nat) : ℚ) ∧
    (Number.ofNat 3).value? = some ((3 : Nat) : ℚ) ∧
    apply (fun _ => 0) .empty .subcadena
      [.text "año", .number (Number.ofNat 2), .number (Number.ofNat 3)] = pure (.text "ño") ∧
    (do
      let first ← apply (fun _ => 0) .empty .subcadena
        [.text "año", .number 1, .number (Number.ofNat 1)]
      let later ← apply (fun _ => 0) .empty .subcadena
        [.text "año", .number (Number.ofNat 2), .number (Number.ofNat 3)]
      apply (fun _ => 0) .empty .concatenar [first, later]) = pure (.text "año") ∧
    ∃ l m n,
      (do
        let whole ← apply (fun _ => 0) .empty .concatenar [.text "año", .text "año"]
        apply (fun _ => 0) .empty .longitud [whole]) = pure (.number l) ∧
      apply (fun _ => 0) .empty .longitud [.text "año"] = pure (.number m) ∧
      apply (fun _ => 0) .empty .longitud [.text "año"] = pure (.number n) ∧
      (l == m + n) = true := by
  have value (n : Nat) (small : n ≤ 3) : (Number.ofNat n).value? = some (n : ℚ) :=
    Number.value?_ofNat (small.trans (by decide))
  have valid : Text.isUtf8 "año" = true := by decide
  have length : Text.length "año" = 3 := by decide
  obtain ⟨-, inside, cut, sum⟩ := subcadena_splits (fun _ => 0) .empty
  refine ⟨valid, length, value 1 (by decide), value 2 (by decide), value 3 le_rfl, ?_, ?_, ?_⟩
  · exact (inside "año" (Number.ofNat 2) (Number.ofNat 3) 2 3 (by rw [length]; decide)
      (value 2 (by decide)) (value 3 le_rfl) (by decide) (by decide) (by rw [length])).1
  · exact cut "año" (Number.ofNat 1) (Number.ofNat 2) (Number.ofNat 3) 1 valid (by decide)
      (value 1 (by decide)) (value 2 (by decide)) (by rw [length]; exact value 3 le_rfl)
  · exact sum "año" "año" valid valid (by decide)

end Builtin

end Pseudocode
