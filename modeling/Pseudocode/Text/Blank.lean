import Pseudocode.Text.Utf8

/-!
# Blank characters

White space in sources and around numbers: the ASCII blanks with vertical tab and form feed, the
next-line control, and every separator of the Unicode character database.
-/

namespace Pseudocode

/-- Whether a character is white space. -/
def isBlank (c : Char) : Bool :=
  let n := c.toNat
  (9 ≤ n && n ≤ 13) || n == 0x20 || n == 0x85 || n == 0xA0 || n == 0x1680 ||
    (0x2000 ≤ n && n ≤ 0x200A) || n == 0x2028 || n == 0x2029 || n == 0x202F || n == 0x205F ||
    n == 0x3000

/-- A list without the elements that satisfy `p` at either end. -/
def trimWhile {α : Type} (p : α → Bool) (xs : List α) : List α :=
  ((xs.dropWhile p).reverse.dropWhile p).reverse

namespace Text

/-- Whether a text has no character but white space. -/
def isBlank (t : Text) : Bool := t.chars.all Pseudocode.isBlank

/-- A text without the white space at either end. Its other bytes are kept as they are. -/
def trim (t : Text) : Text :=
  ⟨(trimWhile (fun p => Pseudocode.isBlank p.1) t.segments).flatMap (·.2)⟩

end Text

end Pseudocode
