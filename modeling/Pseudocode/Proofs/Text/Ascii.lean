import Pseudocode.Proofs.Text.CharSet
import Pseudocode.Proofs.Text.Utf8
import Pseudocode.Text.Case

/-!
# Texts of ASCII characters

A text whose bytes are all below 128 has one character for each byte, and there the two relations
that ignore case are one: lower-casing, and folding into case orbits, both compare the bytes after
capital letters have been made small. A mark that is no letter folds with nothing but itself, also
in a text that holds other characters.
-/

namespace Pseudocode

namespace Ascii

/-- A byte that stands for one of the letters without an accent. -/
def IsLetter (b : UInt8) : Prop := (65 ≤ b ∧ b ≤ 90) ∨ (97 ≤ b ∧ b ≤ 122)

instance (b : UInt8) : Decidable (IsLetter b) :=
  inferInstanceAs (Decidable ((65 ≤ b ∧ b ≤ 90) ∨ (97 ≤ b ∧ b ≤ 122)))

/-- The byte with a capital letter made small. -/
def lower (b : UInt8) : UInt8 := if 65 ≤ b ∧ b ≤ 90 then b + 32 else b

/-- The character of a byte. -/
def char (b : UInt8) : Char := Char.ofNat b.toNat

theorem IsLetter.lt {b : UInt8} (h : IsLetter b) : b < 128 := by
  rcases h with ⟨-, h⟩ | ⟨-, h⟩
  · exact UInt8.lt_of_le_of_lt h (by decide)
  · exact UInt8.lt_of_le_of_lt h (by decide)

/-- Every fact about the ASCII bytes below is one of 128 cases. -/
private theorem forall_of_fin {P : UInt8 → Prop} (h : ∀ n : Fin 128, P (UInt8.ofNat n)) {b : UInt8}
    (hb : b < 128) : P b := by
  have hn : b.toNat < 128 := UInt8.lt_iff_toNat_lt.1 hb
  have := h ⟨b.toNat, hn⟩
  simpa using this

theorem lower_lt {b : UInt8} (hb : b < 128) : lower b < 128 :=
  forall_of_fin (P := fun b => lower b < 128) (by decide) hb

theorem lt_of_lower_lt {b : UInt8} (hb : lower b < 128) : b < 128 := by
  unfold lower at hb
  split at hb
  · next h => exact UInt8.lt_of_le_of_lt h.2 (by decide)
  · exact hb

theorem utf8EncodeChar_char {b : UInt8} (hb : b < 128) : String.utf8EncodeChar (char b) = [b] :=
  forall_of_fin (P := fun b => String.utf8EncodeChar (char b) = [b]) (by decide) hb

theorem lowerChar_char {b : UInt8} (hb : b < 128) : lowerChar (char b) = char (lower b) :=
  forall_of_fin (P := fun b => lowerChar (char b) = char (lower b)) (by decide +kernel) hb

/-- A case orbit is named by its capital letter. -/
theorem foldChar_char {b : UInt8} (hb : b < 128) : foldChar (char b) = foldChar (char (lower b)) :=
  forall_of_fin (P := fun b => foldChar (char b) = foldChar (char (lower b))) (by decide +kernel) hb

theorem lower_foldChar_char {b : UInt8} (hb : b < 128) :
    lowerChar (foldChar (char b)) = char (lower b) :=
  forall_of_fin (P := fun b => lowerChar (foldChar (char b)) = char (lower b))
    (by decide +kernel) hb

theorem toNat_char_mark {b : UInt8} (hb : 0 < b) (hm : b < 65) :
    0 < (char b).toNat ∧ (char b).toNat < 65 :=
  forall_of_fin (P := fun b => 0 < b → b < 65 → 0 < (char b).toNat ∧ (char b).toNat < 65)
    (by decide) (UInt8.lt_trans hm (by decide)) hb hm

theorem foldChar_char_mark {b : UInt8} (hm : b < 65) : foldChar (char b) = char b :=
  forall_of_fin (P := fun b => b < 65 → foldChar (char b) = char b) (by decide +kernel)
    (UInt8.lt_trans hm (by decide)) hm

theorem char_inj {a b : UInt8} (ha : a < 128) (hb : b < 128) (h : char a = char b) : a = b := by
  have he := congrArg String.utf8EncodeChar h
  rw [utf8EncodeChar_char ha, utf8EncodeChar_char hb] at he
  exact List.singleton_inj.1 he

end Ascii

namespace Text

/-- Every byte is that of an ASCII character. -/
def IsAscii (t : Text) : Prop := ∀ b ∈ t.bytes, b < 128

/-- Every byte is that of a letter without an accent, large or small. -/
def IsAsciiWord (t : Text) : Prop := ∀ b ∈ t.bytes, Ascii.IsLetter b

instance (t : Text) : Decidable t.IsAscii := List.decidableBAll (· < 128) t.bytes

instance (t : Text) : Decidable t.IsAsciiWord := List.decidableBAll Ascii.IsLetter t.bytes

/-- The text with its capital ASCII letters made small. -/
def asciiLower (t : Text) : Text := ⟨t.bytes.map Ascii.lower⟩

theorem IsAsciiWord.isAscii {t : Text} (h : t.IsAsciiWord) : t.IsAscii :=
  fun _ hb => (h _ hb).lt

theorem IsAscii.isAscii_asciiLower {t : Text} (h : t.IsAscii) : t.asciiLower.IsAscii := by
  intro b hb
  obtain ⟨c, hc, rfl⟩ := List.mem_map.1 hb
  exact Ascii.lower_lt (h c hc)

theorem IsAscii.of_asciiLower {t : Text} (h : t.asciiLower.IsAscii) : t.IsAscii :=
  fun _ hb => Ascii.lt_of_lower_lt (h _ (List.mem_map_of_mem hb))

private theorem decode_ascii {bytes : List UInt8} (h : ∀ b ∈ bytes, b < 128) :
    Utf8.decode bytes = bytes.map Ascii.char := by
  induction bytes with
  | nil => rfl
  | cons b rest ih =>
    have hb : b < 128 := h b (by simp)
    have hf : Utf8.first b rest = (Ascii.char b, 0) := by
      rw [Utf8.first.eq_def, if_pos hb]
      rfl
    have hd : Utf8.decode (b :: rest) = (Utf8.first b rest).1 ::
        Utf8.decodeAfter (Utf8.first b rest).2 rest := rfl
    rw [hd, hf, List.map_cons]
    exact congrArg _ (ih fun c hc => h c (by simp [hc]))

theorem IsAscii.chars_eq {t : Text} (h : t.IsAscii) : t.chars = t.bytes.map Ascii.char :=
  decode_ascii h

theorem IsAscii.append {a b : Text} (ha : a.IsAscii) (hb : b.IsAscii) : (a ++ b).IsAscii := by
  intro byte mem
  rw [bytes_append, List.mem_append] at mem
  rcases mem with mem | mem
  · exact ha byte mem
  · exact hb byte mem

theorem IsAscii.chars_append {a b : Text} (ha : a.IsAscii) (hb : b.IsAscii) :
    (a ++ b).chars = a.chars ++ b.chars := by
  rw [(ha.append hb).chars_eq, ha.chars_eq, hb.chars_eq, bytes_append, List.map_append]

private theorem encode_ascii {bytes : List UInt8} (h : ∀ b ∈ bytes, b < 128) :
    (bytes.map Ascii.char).flatMap String.utf8EncodeChar = bytes := by
  induction bytes with
  | nil => rfl
  | cons b rest ih =>
    rw [List.map_cons, List.flatMap_cons, Ascii.utf8EncodeChar_char (h b (by simp)),
      ih fun c hc => h c (by simp [hc])]
    rfl

/-- Lower-casing an ASCII text makes its capital letters small. -/
theorem IsAscii.lower_eq {t : Text} (h : t.IsAscii) : t.lower = t.asciiLower := by
  have hmap : (t.bytes.map Ascii.char).map lowerChar =
      (t.bytes.map Ascii.lower).map Ascii.char := by
    rw [List.map_map, List.map_map]
    exact List.map_congr_left fun b hb => Ascii.lowerChar_char (h b hb)
  ext1
  rw [lower, mapChars, h.chars_eq, hmap, bytes_ofChars]
  exact encode_ascii h.isAscii_asciiLower

/-- Two ASCII texts fold together when they differ in nothing but capital letters. -/
theorem IsAscii.sameFold_iff {a b : Text} (ha : a.IsAscii) (hb : b.IsAscii) :
    a.sameFold b = true ↔ a.asciiLower = b.asciiLower := by
  have folded : ∀ {t : Text}, t.IsAscii →
      t.chars.map foldChar = (t.asciiLower.bytes.map Ascii.char).map foldChar := by
    intro t ht
    rw [ht.chars_eq, asciiLower, List.map_map, List.map_map, List.map_map]
    exact List.map_congr_left fun c hc => Ascii.foldChar_char (ht c hc)
  have lowered : ∀ {t : Text}, t.IsAscii →
      (t.chars.map foldChar).map lowerChar = (t.asciiLower.bytes).map Ascii.char := by
    intro t ht
    rw [ht.chars_eq, asciiLower, List.map_map, List.map_map, List.map_map]
    exact List.map_congr_left fun c hc => Ascii.lower_foldChar_char (ht c hc)
  rw [sameFold, beq_iff_eq]
  constructor
  · intro h
    have hl := congrArg (List.map lowerChar) h
    rw [lowered ha, lowered hb] at hl
    have he := congrArg (List.flatMap String.utf8EncodeChar) hl
    rw [encode_ascii ha.isAscii_asciiLower, encode_ascii hb.isAscii_asciiLower] at he
    exact Text.ext he
  · intro h
    rw [folded ha, folded hb, h]

/-! ### Marks

A mark is an ASCII character before the letters. No run of the folding table leads to one, and no
sequence of several bytes spells one. -/

private theorem ofNat_ne_mark {n : Nat} {c : Char} (hn : 65 ≤ n) (hc : 0 < c.toNat)
    (hm : c.toNat < 65) : Char.ofNat n ≠ c := by
  intro h
  have hv : (Char.ofNat n).toNat = n ∨ (Char.ofNat n).toNat = 0 := by
    by_cases hvalid : n.isValidChar
    · exact .inl (by rw [Char.ofNat, dif_pos hvalid]; rfl)
    · exact .inr (by rw [Char.ofNat, dif_neg hvalid]; rfl)
  rw [h] at hv
  omega

private theorem folding_target_ge : ∀ r ∈ folding.runs, 65 ≤ r.target := by decide +kernel

private theorem eq_of_foldChar_eq_mark {c d : Char} (hd : 0 < d.toNat) (hm : d.toNat < 65)
    (h : foldChar c = d) : c = d := by
  unfold foldChar CharMap.apply at h
  split at h
  · next r hr =>
    have htarget := folding_target_ge r (CharMap.run?_eq_some_iff.1 hr).1
    exact absurd h (ofNat_ne_mark (by omega) hd hm)
  · exact h

/-- A character below the letters is only spelt by its own byte. -/
theorem first_eq_mark {a : UInt8} {rest : List UInt8} {c : Char} {n : Nat}
    (hc : 0 < c.toNat) (hm : c.toNat < 65) (h : Utf8.first a rest = (c, n)) :
    a < 128 ∧ Ascii.char a = c ∧ n = 0 := by
  have starts := Utf8.starts_first a rest
  rw [h] at starts
  -- What several bytes spell lies above the ASCII characters.
  have above : ∀ n, 128 ≤ n → Char.ofNat n ≠ c := fun n hn => ofNat_ne_mark (by omega) hc hm
  cases starts with
  | ascii small => exact ⟨small, rfl, rfl⟩
  | misfit => exact absurd rfl (above _ (by decide))
  | pair _ formed => exact absurd rfl (above _ (Utf8.le_of_isPair formed))
  | triple _ formed => exact absurd rfl (above _ (Utf8.le_of_isTriple formed))
  | quad _ formed => exact absurd rfl (above _ (Utf8.le_of_isQuad formed))

private theorem bytes_eq_of_chars_eq_mark {t : Text} {b : UInt8} (hb : 0 < b) (hm : b < 65)
    (h : t.chars = [Ascii.char b]) : t.bytes = [b] := by
  obtain ⟨hpos, hlt⟩ := Ascii.toNat_char_mark hb hm
  obtain ⟨bytes⟩ := t
  cases bytes with
  | nil => exact absurd h (List.ne_cons_self ·)
  | cons a rest =>
    have hcons : (Utf8.first a rest).1 :: Utf8.decodeAfter (Utf8.first a rest).2 rest =
        [Ascii.char b] := h
    obtain ⟨hfirst, hrest⟩ := List.cons.inj hcons
    have hpair : Utf8.first a rest = (Ascii.char b, (Utf8.first a rest).2) := Prod.ext hfirst rfl
    obtain ⟨ha, hchar, hskip⟩ := first_eq_mark hpos hlt hpair
    have hnil : rest = [] := by
      rw [hskip] at hrest
      cases rest with
      | nil => rfl
      | cons c rest => exact absurd hrest (List.cons_ne_nil _ _)
    rw [hnil, Ascii.char_inj ha (UInt8.lt_trans hm (by decide)) hchar]

/-- A text folds with a mark only if it is that mark. -/
theorem sameFold_mark_iff {t : Text} {b : UInt8} (hb : 0 < b) (hm : b < 65) :
    t.sameFold ⟨[b]⟩ = true ↔ t = ⟨[b]⟩ := by
  obtain ⟨hpos, hlt⟩ := Ascii.toNat_char_mark hb hm
  constructor
  · intro h
    have hmark : (⟨[b]⟩ : Text).chars = [Ascii.char b] :=
      IsAscii.chars_eq fun c hc => by
        rw [List.mem_singleton.1 hc]
        exact UInt8.lt_trans hm (by decide)
    rw [sameFold, beq_iff_eq, hmark, List.map_singleton, Ascii.foldChar_char_mark hm] at h
    obtain ⟨c, hchars, hc⟩ := List.map_eq_singleton_iff.1 h
    rw [eq_of_foldChar_eq_mark hpos hlt hc] at hchars
    exact Text.ext (bytes_eq_of_chars_eq_mark hb hm hchars)
  · rintro rfl
    rw [sameFold, beq_iff_eq]

end Text

end Pseudocode
