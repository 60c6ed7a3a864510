import Pseudocode.Llvm.Printer
import Pseudocode.Proofs.Text.Characters

/-!
# Names in the text of a module

What is different in a module is spelled differently in its text. Labels end in their numbers, slots
are named after their variables, and what stands between quotes can be read back, byte for byte: so
a string constant holds the bytes of its string and the zero behind them.
-/

namespace Pseudocode

namespace Text

theorem append_right_cancel {a b c : Text} (same : a ++ c = b ++ c) : a = b := by
  obtain ⟨as⟩ := a
  obtain ⟨bs⟩ := b
  exact congrArg mk (List.append_cancel_right (congrArg bytes same))

theorem append_left_cancel {a b c : Text} (same : c ++ a = c ++ b) : a = b := by
  obtain ⟨as⟩ := a
  obtain ⟨bs⟩ := b
  exact congrArg mk (List.append_cancel_left (congrArg bytes same))

end Text

namespace Llvm

/-- The number at the end of some characters. -/
def lastDigits (cs : List Char) : List Char := (cs.reverse.takeWhile Char.isDigit).reverse

theorem lastDigits_append {cs digits : List Char} (number : ∀ c ∈ digits, c.isDigit = true) :
    lastDigits (cs ++ '.' :: digits) = digits := by
  have all : ∀ c ∈ digits.reverse, c.isDigit = true := by simpa using number
  have dot : Char.isDigit '.' = false := rfl
  simp [lastDigits, List.takeWhile_append_of_pos all, dot]

/-- The characters of a label. -/
def Label.spelling : Label → List Char
  | entry => "entry".toList
  | numbered role index => role.name.toList ++ '.' :: Nat.toDigits 10 index

theorem Label.text_eq (l : Label) : l.text = Text.ofChars l.spelling := by
  cases l with
  | entry => rfl
  | numbered role index =>
    rw [Label.text, Label.spelling, Text.ofChars_append, Text.append_assoc]
    rfl

/-- Labels with different places among the blocks are spelled differently. -/
theorem Label.rank_eq_of_text_eq {a b : Label} (same : a.text = b.text) : a.rank = b.rank := by
  rw [text_eq, text_eq] at same
  have ends := congrArg lastDigits (Text.ofChars_injective same)
  have number (role : Role) (index : Nat) :
      lastDigits (numbered role index).spelling = Nat.toDigits 10 index :=
    lastDigits_append fun _ => Nat.isDigit_of_mem_toDigits (by decide) (by decide)
  have word : lastDigits entry.spelling = [] := by decide
  cases a with
  | entry =>
    cases b with
    | entry => rfl
    | numbered role index =>
      rw [number, word] at ends
      exact absurd ends.symm Nat.toDigits_ne_nil
  | numbered role index =>
    cases b with
    | entry =>
      rw [number, word] at ends
      exact absurd ends Nat.toDigits_ne_nil
    | numbered role' index' =>
      rw [number, number] at ends
      exact congrArg (· + 1) (Text.ofNat_injective (congrArg Text.ofChars ends))

/-- The value of a hexadecimal digit in upper case. -/
def hexValue (b : UInt8) : UInt8 := if b < 0x3A then b - 0x30 else b - 0x37

/-- The bytes that are meant by what stands between quotes: a backslash and two digits are the byte
with these digits, and two backslashes are one. -/
def unquoted : List UInt8 → List UInt8
  | [] => []
  | b :: rest =>
    if b ≠ 0x5C then b :: unquoted rest
    else match rest with
      | [] => [b]
      | c :: rest =>
        if c = 0x5C then b :: unquoted rest
        else match rest with
          | [] => [b, c]
          | d :: rest => (16 * hexValue c + hexValue d) :: unquoted rest

/-- A byte is written as it is, or as a backslash and two digits. No quotation mark is written. -/
theorem quotedByte_cases (b : UInt8) :
    (quotedByte b = [b] ∧ b ≠ 0x5C ∧ b ≠ 0x22) ∨
      ∃ c d, quotedByte b = [0x5C, c, d] ∧ c ≠ 0x5C ∧ c ≠ 0x22 ∧ d ≠ 0x22 ∧
        16 * hexValue c + hexValue d = b := by
  have byNumber : ∀ n : Fin 256, let b := UInt8.ofNat n
      let c := (quotedByte b).getD 1 0
      let d := (quotedByte b).getD 2 0
      (quotedByte b = [b] ∧ b ≠ 0x5C ∧ b ≠ 0x22) ∨
        (quotedByte b = [0x5C, c, d] ∧ c ≠ 0x5C ∧ c ≠ 0x22 ∧ d ≠ 0x22 ∧
          16 * hexValue c + hexValue d = b) := by
    decide +kernel
  have known := byNumber ⟨b.toNat, b.toNat_lt⟩
  simp only [UInt8.ofNat_toNat] at known
  exact known.imp_right fun escaped => ⟨_, _, escaped⟩

/-- What is written between quotes can be read back. -/
theorem unquoted_flatMap_quotedByte (bs : List UInt8) : unquoted (bs.flatMap quotedByte) = bs := by
  induction bs with
  | nil => rfl
  | cons b bs ih =>
    rw [List.flatMap_cons]
    obtain ⟨plain, other, _⟩ | ⟨c, d, escaped, other, _, _, value⟩ := quotedByte_cases b
    · rw [plain, List.singleton_append, unquoted.eq_def]
      simp [other, ih]
    · rw [escaped]
      simp [unquoted, other, value, ih]

theorem not_mem_flatMap_quotedByte (bs : List UInt8) : 0x22 ∉ bs.flatMap quotedByte := by
  intro mem
  obtain ⟨b, _, mem⟩ := List.mem_flatMap.1 mem
  obtain ⟨plain, _, other⟩ | ⟨c, d, escaped, _, hc, hd, _⟩ := quotedByte_cases b
  · rw [plain, List.mem_singleton] at mem
    exact other mem.symm
  · rw [escaped] at mem
    simp [hc.symm, hd.symm] at mem

/-- A text between quotes. -/
theorem bytes_quoted (t : Text) : (quoted t).bytes = 0x22 :: t.bytes.flatMap quotedByte ++ [0x22] :=
  rfl

theorem quoted_injective {s t : Text} (same : quoted s = quoted t) : s = t := by
  have bytes := congrArg Text.bytes same
  rw [bytes_quoted, bytes_quoted] at bytes
  have inner := List.append_cancel_right (List.cons.inj bytes).2
  rw [Text.ext_iff, ← unquoted_flatMap_quotedByte s.bytes, inner, unquoted_flatMap_quotedByte]

/-- Local names are spelled differently: those between quotes start with a quotation mark, which
stands in no other. -/
theorem localName_injective {s t : Text} (same : localName s = localName t) : s = t := by
  replace same := Text.append_left_cancel same
  have marked {s t : Text} (plain : s.bytes.all isNameByte = true) : s ≠ quoted t := by
    rintro rfl
    rw [List.all_eq_true] at plain
    have mark := plain 0x22 (by simp [bytes_quoted])
    exact absurd mark (by decide)
  split at same
  · next plain =>
    split at same
    · exact same
    · exact absurd same (marked plain)
  · split at same
    · next plain => exact absurd same.symm (marked plain)
    · exact quoted_injective same

/-- Different variables have slots of different names. -/
theorem slotName_injective {x y : Text} (same : slotName x = slotName y) : x = y :=
  Text.append_right_cancel (localName_injective same)

/-- A string constant holds the bytes of its string and a zero. -/
theorem Module.stringText_eq (index : Nat) (s : Text) :
    ∃ body, stringText index s =
        "@.str." ++ Text.ofNat index ++ " = constant [" ++ Text.ofNat (s.bytes ++ [0]).length ++
          " x i8] c\"" ++ ⟨body⟩ ++ "\"\n" ∧
      0x22 ∉ body ∧ unquoted body = s.bytes ++ [0] := by
  refine ⟨(s.bytes ++ [0]).flatMap quotedByte, ?_, not_mem_flatMap_quotedByte _,
    unquoted_flatMap_quotedByte _⟩
  rw [stringText, stringName, stringType, List.length_append]
  have opening : Text.ofString " = constant [" = " = constant " ++ "[" := rfl
  have middle : Text.ofString " x i8] c\"" = " x i8]" ++ " c" ++ "\"" := rfl
  have closing : Text.ofString "\"\n" = "\"" ++ "\n" := rfl
  ext1
  simp [quoted, opening, middle, closing]

end Llvm

end Pseudocode
