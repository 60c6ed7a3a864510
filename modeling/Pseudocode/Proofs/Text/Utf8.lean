import Pseudocode.Text.Utf8

/-!
# Decoding in parts

The character that a byte starts depends only on the bytes after it up to the first that continues
no sequence. So a text may be decoded in two parts wherever the first part ends in such a byte, and
a line break is one.
-/

namespace Pseudocode

namespace Utf8

/-- How a byte starts a character: by itself, as the head of a well-formed sequence, or not at all,
when the replacement character stands for it. -/
inductive Starts (a : UInt8) : List UInt8 → Char × Nat → Prop where
  | ascii {rest : List UInt8} (small : a < 0x80) : Starts a rest (Char.ofNat a.toNat, 0)
  | pair {b : UInt8} {rest : List UInt8} (large : ¬ a < 0x80) (formed : isPair a b = true) :
      Starts a (b :: rest) (pairChar a b, 1)
  | triple {b c : UInt8} {rest : List UInt8} (large : ¬ a < 0x80) (formed : isTriple a b c = true) :
      Starts a (b :: c :: rest) (tripleChar a b c, 2)
  | quad {b c d : UInt8} {rest : List UInt8} (large : ¬ a < 0x80)
      (formed : isQuad a b c d = true) : Starts a (b :: c :: d :: rest) (quadChar a b c d, 3)
  | misfit {rest : List UInt8} (large : ¬ a < 0x80) : Starts a rest (replacement, 0)

theorem starts_first (a : UInt8) (rest : List UInt8) : Starts a rest (first a rest) := by
  rw [first.eq_def]
  split
  · next small => exact .ascii small
  next large =>
  split
  · exact .misfit large
  split
  · next formed => exact .pair large formed
  split
  · exact .misfit large
  split
  · next formed => exact .triple large formed
  split
  · exact .misfit large
  split
  · next formed => exact .quad large formed
  · exact .misfit large

theorem isTail_of_isPair {a b : UInt8} (h : isPair a b = true) : isTail b = true := by
  simp only [isPair, Bool.and_eq_true] at h
  exact h.2

private theorem isTail_of_le {b l h : UInt8} (hl : 0x80 ≤ l) (hh : h ≤ 0xBF)
    (hb : (decide (l ≤ b) && decide (b ≤ h)) = true) : isTail b = true := by
  simp only [Bool.and_eq_true, decide_eq_true_eq] at hb
  simp only [isTail, Bool.and_eq_true, decide_eq_true_eq]
  exact ⟨UInt8.le_trans hl hb.1, UInt8.le_trans hb.2 hh⟩

theorem isTail_of_isTriple {a b c : UInt8} (h : isTriple a b c = true) :
    isTail b = true ∧ isTail c = true := by
  simp only [isTriple, Bool.and_eq_true] at h
  refine ⟨?_, h.2⟩
  have hb := h.1
  split at hb
  · exact isTail_of_le (by decide) (by decide) hb
  · split at hb
    · exact isTail_of_le (by decide) (by decide) hb
    · exact (Bool.and_eq_true_iff.1 hb).2

theorem isTail_of_isQuad {a b c d : UInt8} (h : isQuad a b c d = true) :
    isTail b = true ∧ isTail c = true ∧ isTail d = true := by
  simp only [isQuad, Bool.and_eq_true] at h
  obtain ⟨⟨hb, hc⟩, hd⟩ := h
  refine ⟨?_, hc, hd⟩
  split at hb
  · exact isTail_of_le (by decide) (by decide) hb
  · split at hb
    · exact isTail_of_le (by decide) (by decide) hb
    · exact (Bool.and_eq_true_iff.1 hb).2

private theorem toNat_le {a b : UInt8} (h : decide (a ≤ b) = true) : a.toNat ≤ b.toNat :=
  UInt8.le_iff_toNat_le.1 (of_decide_eq_true h)

/-- Two bytes spell a character above the ASCII ones. -/
theorem le_of_isPair {a b : UInt8} (h : isPair a b = true) : 128 ≤ a.toNat % 32 * 64 + low b := by
  simp only [isPair, Bool.and_eq_true] at h
  have least : 0xC2 ≤ a.toNat := toNat_le h.1.1
  have most : a.toNat ≤ 0xDF := toNat_le h.1.2
  omega

/-- Three bytes spell a character above the ASCII ones. -/
theorem le_of_isTriple {a b c : UInt8} (h : isTriple a b c = true) :
    128 ≤ a.toNat % 16 * 4096 + low b * 64 + low c := by
  simp only [isTriple, Bool.and_eq_true] at h
  have hb := h.1
  unfold low
  split at hb
  · rw [Bool.and_eq_true] at hb
    have least : 0xA0 ≤ b.toNat := toNat_le hb.1
    have most : b.toNat ≤ 0xBF := toNat_le hb.2
    omega
  · split at hb
    · next ha =>
      have value : a.toNat = 0xED := congrArg UInt8.toNat (eq_of_beq ha)
      omega
    · rw [Bool.and_eq_true, Bool.and_eq_true] at hb
      have least : 0xE1 ≤ a.toNat := toNat_le hb.1.1
      have most : a.toNat ≤ 0xEF := toNat_le hb.1.2
      omega

/-- Four bytes spell a character above the ASCII ones. -/
theorem le_of_isQuad {a b c d : UInt8} (h : isQuad a b c d = true) :
    128 ≤ a.toNat % 8 * 262144 + low b * 4096 + low c * 64 + low d := by
  simp only [isQuad, Bool.and_eq_true] at h
  have hb := h.1.1
  unfold low
  split at hb
  · rw [Bool.and_eq_true] at hb
    have least : 0x90 ≤ b.toNat := toNat_le hb.1
    have most : b.toNat ≤ 0xBF := toNat_le hb.2
    omega
  · split at hb
    · next ha =>
      have value : a.toNat = 0xF4 := congrArg UInt8.toNat (eq_of_beq ha)
      omega
    · rw [Bool.and_eq_true, Bool.and_eq_true] at hb
      have least : 0xF1 ≤ a.toNat := toNat_le hb.1.1
      have most : a.toNat ≤ 0xF3 := toNat_le hb.1.2
      omega

/-- The character that a byte starts is decided by the bytes before the first that continues
nothing, and it takes no more than these. -/
theorem first_append_of_not_tail (a : UInt8) (xs ys : List UInt8) {b : UInt8}
    (hb : isTail b = false) :
    first a (xs ++ b :: ys) = first a xs ∧ (first a xs).2 ≤ xs.length := by
  have hb' : ¬ isTail b = true := by simp [hb]
  have noPair : isPair a b = false :=
    Bool.eq_false_iff.2 fun h => hb' (isTail_of_isPair h)
  have noTriple : ∀ c, isTriple a b c = false ∧ isTriple a c b = false := fun c =>
    ⟨Bool.eq_false_iff.2 fun h => hb' (isTail_of_isTriple h).1,
     Bool.eq_false_iff.2 fun h => hb' (isTail_of_isTriple h).2⟩
  have noQuad : ∀ c d, isQuad a b c d = false ∧ isQuad a c b d = false ∧ isQuad a c d b = false :=
    fun c d =>
      ⟨Bool.eq_false_iff.2 fun h => hb' (isTail_of_isQuad h).1,
       Bool.eq_false_iff.2 fun h => hb' (isTail_of_isQuad h).2.1,
       Bool.eq_false_iff.2 fun h => hb' (isTail_of_isQuad h).2.2⟩
  by_cases ha : a < 0x80
  · simp only [first.eq_def, if_pos ha, Nat.zero_le, and_self]
  -- Three bytes are the most that a character can take, so only the length up to three matters.
  match xs with
  | [] => rcases ys with _ | ⟨c, _ | ⟨d, us⟩⟩ <;> simp [first, ha, noPair, noTriple, noQuad]
  | [c] =>
    rcases ys with _ | ⟨d, us⟩ <;> simp [first, ha, noTriple, noQuad] <;> split <;> simp
  | [c, d] =>
    simp only [List.cons_append, List.nil_append, first, ha, if_false, noQuad,
      Bool.false_eq_true, true_and]
    repeat' split
    all_goals simp
  | c :: d :: e :: xs =>
    simp only [List.cons_append, first, ha, if_false, true_and]
    repeat' split
    all_goals simp

theorem isTail_eq_false {b : UInt8} (hb : b < 0x80) : isTail b = false := by
  have h : ¬ 0x80 ≤ b := UInt8.not_le.2 hb
  simp [isTail, h]

/-- Around an ASCII byte a sequence of bytes is decoded in two parts. -/
theorem decodeAfter_append_ascii {b : UInt8} (hb : b < 0x80) (xs ys : List UInt8) {skip : Nat}
    (hskip : skip ≤ xs.length) :
    decodeAfter skip (xs ++ b :: ys) =
      decodeAfter skip xs ++ Char.ofNat b.toNat :: decode ys := by
  induction xs generalizing skip with
  | nil =>
    obtain rfl : skip = 0 := Nat.le_zero.1 hskip
    have alone : first b ys = (Char.ofNat b.toNat, 0) := by
      rw [first.eq_def, if_pos hb]
    simp [decodeAfter, decode, alone]
  | cons x xs ih =>
    match skip with
    | 0 =>
      obtain ⟨same, short⟩ := first_append_of_not_tail x xs ys (isTail_eq_false hb)
      simp only [List.cons_append, decodeAfter]
      rw [same, ih short]
    | skip + 1 => exact ih (Nat.le_of_succ_le_succ hskip)

end Utf8

namespace Text

/-- The last byte is a line break. -/
def EndsLine (t : Text) : Prop := t.bytes.getLast? = some 10

instance (t : Text) : Decidable t.EndsLine :=
  inferInstanceAs (Decidable (t.bytes.getLast? = some 10))

theorem EndsLine.append_newline (t : Text) : (t ++ "\n" : Text).EndsLine := by
  have newline : ("\n" : Text).bytes = [10] := rfl
  simp [EndsLine, newline]

theorem EndsLine.append {b : Text} (ends : b.EndsLine) (a : Text) : (a ++ b).EndsLine := by
  rw [EndsLine, bytes_append, List.getLast?_append, ends, Option.some_or]

theorem EndsLine.of_append {a b : Text} (ends : (a ++ b).EndsLine) (more : b ≠ empty) :
    b.EndsLine := by
  obtain ⟨last, final⟩ := Option.ne_none_iff_exists'.1
    (mt List.getLast?_eq_none_iff.1 fun none => more (Text.ext none))
  rw [EndsLine, bytes_append, List.getLast?_append, final, Option.some_or] at ends
  rw [EndsLine, final, ends]

/-- A text that ends in a line break has it as its last character, and after it the characters of a
longer text are those of what was added. -/
theorem EndsLine.chars_append {a : Text} (h : a.EndsLine) :
    ∃ cs, a.chars = cs ++ ['\n'] ∧ ∀ b : Text, (a ++ b).chars = a.chars ++ b.chars := by
  obtain ⟨xs, hxs⟩ := List.getLast?_eq_some_iff.1 h
  have split := fun ys => Utf8.decodeAfter_append_ascii (b := 10) (by decide) xs ys
    (Nat.zero_le _)
  have ends : a.chars = Utf8.decode xs ++ ['\n'] := by
    rw [chars, hxs]
    exact split []
  refine ⟨Utf8.decode xs, ends, fun b => ?_⟩
  rw [ends, chars, bytes_append, hxs, List.append_assoc, List.append_assoc]
  exact split b.bytes

end Text

end Pseudocode
