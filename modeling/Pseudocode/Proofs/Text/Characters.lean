import Pseudocode.Proofs.Text.Utf8

/-!
# Characters that are written can be read

The bytes that a character is written as are a well-formed sequence, and reading takes exactly these
bytes, whatever follows them. So the characters of a text that is written from characters are these.
-/

namespace Pseudocode

namespace Utf8

variable {c : Char} {rest : List UInt8}

/-- A code point is no surrogate, and it is not above the last one. -/
theorem toNat_valid (c : Char) : c.toNat < 0xD800 ∨ (0xDFFF < c.toNat ∧ c.toNat < 0x110000) :=
  c.valid

theorem first_encode_one (size : c.toNat ≤ 0x7F) :
    first (UInt8.ofNat c.toNat) rest = (c, 0) := by
  have byte : (UInt8.ofNat c.toNat).toNat = c.toNat := by
    rw [UInt8.toNat_ofNat']
    omega
  have small : UInt8.ofNat c.toNat < 0x80 := by
    rw [UInt8.lt_iff_toNat_lt, byte]
    exact Nat.lt_succ_of_le size
  rw [first.eq_def, if_pos small, byte, Char.ofNat_toNat]

theorem first_encode_two (low : 0x7F < c.toNat) (high : c.toNat ≤ 0x7FF) :
    first (UInt8.ofNat (c.toNat / 64 % 0x20 + 0xC0))
      (UInt8.ofNat (c.toNat % 0x40 + 0x80) :: rest) = (c, 1) := by
  generalize ha : UInt8.ofNat (c.toNat / 64 % 0x20 + 0xC0) = a
  generalize hb : UInt8.ofNat (c.toNat % 0x40 + 0x80) = b
  have byteA : a.toNat = c.toNat / 64 + 0xC0 := by
    rw [← ha, UInt8.toNat_ofNat']
    omega
  have byteB : b.toNat = c.toNat % 64 + 0x80 := by
    rw [← hb, UInt8.toNat_ofNat']
    omega
  have large : ¬ a < 0x80 := by
    rw [UInt8.lt_iff_toNat_lt, byteA]
    exact Nat.not_lt.2 (by simp)
  have formed : isPair a b = true := by
    simp only [isPair, isTail, Bool.and_eq_true, decide_eq_true_eq, UInt8.le_iff_toNat_le, byteA,
      byteB, UInt8.reduceToNat]
    omega
  have value : a.toNat % 32 * 64 + b.toNat % 64 = c.toNat := by omega
  rw [first.eq_def, if_neg large]
  simp only [formed, if_true, pairChar, Utf8.low, value, Char.ofNat_toNat]

theorem first_encode_three (low : 0x7FF < c.toNat) (high : c.toNat ≤ 0xFFFF) :
    first (UInt8.ofNat (c.toNat / 4096 % 0x10 + 0xE0))
      (UInt8.ofNat (c.toNat / 64 % 0x40 + 0x80) :: UInt8.ofNat (c.toNat % 0x40 + 0x80) :: rest) =
        (c, 2) := by
  generalize ha : UInt8.ofNat (c.toNat / 4096 % 0x10 + 0xE0) = a
  generalize hb : UInt8.ofNat (c.toNat / 64 % 0x40 + 0x80) = b
  generalize hd : UInt8.ofNat (c.toNat % 0x40 + 0x80) = d
  have byteA : a.toNat = c.toNat / 4096 + 0xE0 := by
    rw [← ha, UInt8.toNat_ofNat']
    omega
  have byteB : b.toNat = c.toNat / 64 % 64 + 0x80 := by
    rw [← hb, UInt8.toNat_ofNat']
    omega
  have byteD : d.toNat = c.toNat % 64 + 0x80 := by
    rw [← hd, UInt8.toNat_ofNat']
    omega
  have valid := toNat_valid c
  have large : ¬ a < 0x80 := by
    rw [UInt8.lt_iff_toNat_lt, byteA]
    exact Nat.not_lt.2 (by simp)
  have noPair : isPair a b = false := by
    simp only [isPair, Bool.and_eq_false_iff, decide_eq_false_iff_not, UInt8.le_iff_toNat_le,
      byteA, UInt8.reduceToNat]
    omega
  have formed : isTriple a b d = true := by
    simp only [isTriple, isTail, Bool.and_eq_true, decide_eq_true_eq, UInt8.le_iff_toNat_le,
      beq_iff_eq, ← UInt8.toNat_inj, byteA, byteB, byteD, UInt8.reduceToNat]
    split
    · simp only [Bool.and_eq_true, decide_eq_true_eq]
      omega
    · split
      · simp only [Bool.and_eq_true, decide_eq_true_eq]
        omega
      · simp only [Bool.and_eq_true, decide_eq_true_eq]
        omega
  have value : a.toNat % 16 * 4096 + b.toNat % 64 * 64 + d.toNat % 64 = c.toNat := by omega
  rw [first.eq_def, if_neg large]
  simp only [noPair, formed, if_true, Bool.false_eq_true, if_false, tripleChar, Utf8.low, value,
    Char.ofNat_toNat]

theorem first_encode_four (low : 0xFFFF < c.toNat) :
    first (UInt8.ofNat (c.toNat / 262144 % 0x08 + 0xF0))
      (UInt8.ofNat (c.toNat / 4096 % 0x40 + 0x80) :: UInt8.ofNat (c.toNat / 64 % 0x40 + 0x80) ::
        UInt8.ofNat (c.toNat % 0x40 + 0x80) :: rest) = (c, 3) := by
  generalize ha : UInt8.ofNat (c.toNat / 262144 % 0x08 + 0xF0) = a
  generalize hb : UInt8.ofNat (c.toNat / 4096 % 0x40 + 0x80) = b
  generalize hd : UInt8.ofNat (c.toNat / 64 % 0x40 + 0x80) = d
  generalize he : UInt8.ofNat (c.toNat % 0x40 + 0x80) = e
  have valid := toNat_valid c
  have byteA : a.toNat = c.toNat / 262144 + 0xF0 := by
    rw [← ha, UInt8.toNat_ofNat']
    omega
  have byteB : b.toNat = c.toNat / 4096 % 64 + 0x80 := by
    rw [← hb, UInt8.toNat_ofNat']
    omega
  have byteD : d.toNat = c.toNat / 64 % 64 + 0x80 := by
    rw [← hd, UInt8.toNat_ofNat']
    omega
  have byteE : e.toNat = c.toNat % 64 + 0x80 := by
    rw [← he, UInt8.toNat_ofNat']
    omega
  have large : ¬ a < 0x80 := by
    rw [UInt8.lt_iff_toNat_lt, byteA]
    exact Nat.not_lt.2 (by simp)
  have noPair : isPair a b = false := by
    simp only [isPair, Bool.and_eq_false_iff, decide_eq_false_iff_not, UInt8.le_iff_toNat_le,
      byteA, UInt8.reduceToNat]
    omega
  have noTriple : isTriple a b d = false := by
    simp only [isTriple, isTail, beq_iff_eq, ← UInt8.toNat_inj, byteA, UInt8.reduceToNat]
    rw [if_neg (by omega), if_neg (by omega)]
    simp only [Bool.and_eq_false_iff, decide_eq_false_iff_not, UInt8.le_iff_toNat_le, byteA,
      UInt8.reduceToNat]
    omega
  have formed : isQuad a b d e = true := by
    simp only [isQuad, isTail, Bool.and_eq_true, decide_eq_true_eq, UInt8.le_iff_toNat_le,
      beq_iff_eq, ← UInt8.toNat_inj, byteA, byteB, byteD, byteE, UInt8.reduceToNat]
    split
    · simp only [Bool.and_eq_true, decide_eq_true_eq]
      omega
    · split
      · simp only [Bool.and_eq_true, decide_eq_true_eq]
        omega
      · simp only [Bool.and_eq_true, decide_eq_true_eq]
        omega
  have value : a.toNat % 8 * 262144 + b.toNat % 64 * 4096 + d.toNat % 64 * 64 + e.toNat % 64 =
      c.toNat := by omega
  rw [first.eq_def, if_neg large]
  simp only [noPair, noTriple, formed, if_true, Bool.false_eq_true, if_false, quadChar, Utf8.low,
    value, Char.ofNat_toNat]

/-- The bytes that a character is written as are read as that character, whatever follows. -/
theorem exists_first_encode (c : Char) (rest : List UInt8) :
    ∃ a tail, String.utf8EncodeChar c = a :: tail ∧ first a (tail ++ rest) = (c, tail.length) := by
  rw [String.utf8EncodeChar.eq_def]
  dsimp only
  split
  · next one => exact ⟨_, [], rfl, first_encode_one one⟩
  next low =>
  split
  · next two => exact ⟨_, [_], rfl, first_encode_two (Nat.lt_of_not_le low) two⟩
  next low =>
  split
  · next three => exact ⟨_, [_, _], rfl, first_encode_three (Nat.lt_of_not_le low) three⟩
  · next low => exact ⟨_, [_, _, _], rfl, first_encode_four (Nat.lt_of_not_le low)⟩

theorem decodeAfter_append (taken rest : List UInt8) :
    decodeAfter taken.length (taken ++ rest) = decode rest := by
  induction taken with
  | nil => rfl
  | cons _ taken ih => exact ih

theorem decode_encode_append (c : Char) (rest : List UInt8) :
    decode (String.utf8EncodeChar c ++ rest) = c :: decode rest := by
  obtain ⟨a, tail, bytes, read⟩ := exists_first_encode c rest
  rw [bytes, List.cons_append, decode, decodeAfter, read, decodeAfter_append]

end Utf8

namespace Text

variable {c : Char} {cs : List Char}

/-- What is written from characters is read as these characters, whatever follows. -/
theorem chars_ofChars_append (cs : List Char) (after : Text) :
    (ofChars cs ++ after).chars = cs ++ after.chars := by
  rw [chars, bytes_append, bytes_ofChars]
  induction cs with
  | nil => rfl
  | cons c cs ih =>
    rw [List.flatMap_cons, List.append_assoc, Utf8.decode_encode_append, ih, List.cons_append]

/-- A text that is written from characters has these characters. -/
@[simp] theorem chars_ofChars (cs : List Char) : (ofChars cs).chars = cs := by
  have alone := chars_ofChars_append cs empty
  rw [append_empty] at alone
  exact alone.trans (List.append_nil cs)

/-- Characters can be told from the bytes that spell them. -/
theorem ofChars_injective {cs ds : List Char} (same : ofChars cs = ofChars ds) : cs = ds := by
  rw [← chars_ofChars cs, same, chars_ofChars]

theorem ofNat_injective {m n : Nat} (same : ofNat m = ofNat n) : m = n := by
  have digits : Nat.toDigits 10 m = Nat.toDigits 10 n := ofChars_injective same
  rw [← Nat.ofDigitChars_ten_toDigits (n := m), digits, Nat.ofDigitChars_ten_toDigits]

/-- An ASCII character ends what is in front of it, also where that is not well-formed. -/
theorem chars_append_ofChars_cons (small : c.toNat ≤ 0x7F) (before after : Text) :
    (before ++ (ofChars (c :: cs) ++ after)).chars = before.chars ++ (c :: cs ++ after.chars) := by
  have byte : (UInt8.ofNat c.toNat).toNat = c.toNat := by
    rw [UInt8.toNat_ofNat']
    omega
  have below : UInt8.ofNat c.toNat < 0x80 := by
    rw [UInt8.lt_iff_toNat_lt, byte]
    exact Nat.lt_succ_of_le small
  have single : String.utf8EncodeChar c = [UInt8.ofNat c.toNat] := by
    rw [String.utf8EncodeChar.eq_def]
    exact if_pos small
  have encoded : (ofChars (c :: cs) ++ after).bytes =
      UInt8.ofNat c.toNat :: (ofChars cs ++ after).bytes := by
    rw [bytes_append, bytes_append, bytes_ofChars, bytes_ofChars, List.flatMap_cons, single]
    rfl
  have split := Utf8.decodeAfter_append_ascii below before.bytes (ofChars cs ++ after).bytes
    (Nat.zero_le _)
  rw [byte, Char.ofNat_toNat] at split
  rw [chars, bytes_append, encoded]
  exact split.trans (congrArg (Utf8.decode before.bytes ++ c :: ·) (chars_ofChars_append cs after))

end Text

end Pseudocode
