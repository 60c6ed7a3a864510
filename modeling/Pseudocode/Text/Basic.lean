/-!
# Texts

A text is a sequence of bytes. Most texts are UTF-8, but a source file, an input line or a name
handed over by a host may hold any bytes, and they have to come out again as they went in. So bytes
are what a text *is*, and the characters it spells are a view of it.
-/

namespace Pseudocode

/-- A sequence of bytes, usually the UTF-8 form of some characters. -/
@[ext] structure Text where
  bytes : List UInt8
  deriving DecidableEq, Repr, Inhabited

namespace Text

/-- The UTF-8 form of a list of characters. -/
def ofChars (cs : List Char) : Text := ⟨cs.flatMap String.utf8EncodeChar⟩

/-- The UTF-8 form of a string. -/
def ofString (s : String) : Text := ofChars s.toList

instance : Coe String Text := ⟨ofString⟩

/-- The text without bytes. -/
def empty : Text := ⟨[]⟩

instance : EmptyCollection Text := ⟨empty⟩

/-- One text after another. -/
def append (a b : Text) : Text := ⟨a.bytes ++ b.bytes⟩

instance : Append Text := ⟨append⟩

/-- Texts are ordered by their bytes, first difference first. -/
instance : LT Text := ⟨fun a b => a.bytes < b.bytes⟩

instance (a b : Text) : Decidable (a < b) := inferInstanceAs (Decidable (a.bytes < b.bytes))

/-- Whether there are no bytes. -/
def isEmpty (t : Text) : Bool := t.bytes.isEmpty

/-- All texts in order, one after another. -/
def concat (ts : List Text) : Text := ⟨ts.flatMap bytes⟩

/-- All texts in order with `sep` between neighbours. -/
def join (sep : Text) : List Text → Text
  | [] => empty
  | [t] => t
  | t :: rest => t ++ sep ++ join sep rest

/-- The bytes between occurrences of a separator: one piece more than there are separators. -/
def splitBytes (sep : UInt8) : List UInt8 → List (List UInt8)
  | [] => [[]]
  | b :: rest =>
    if b = sep then [] :: splitBytes sep rest
    else match splitBytes sep rest with
      | [] => [[b]]
      | piece :: pieces => (b :: piece) :: pieces

/-- The pieces of a text between occurrences of a separator. There is always one. -/
def split (sep : UInt8) (t : Text) : List Text := (splitBytes sep t.bytes).map Text.mk

/-- The lines of a text. There is always one. -/
def lines (t : Text) : List Text := t.split 10

/-- The same text `n` times over. -/
def replicate (n : Nat) (t : Text) : Text := concat (List.replicate n t)

/-- Decimal digits of a natural number. -/
def ofNat (n : Nat) : Text := ofChars (Nat.toDigits 10 n)

/-- Decimal digits of an integer, after a minus sign when it is negative. -/
def ofInt (i : Int) : Text :=
  if i < 0 then ofString "-" ++ ofNat i.natAbs else ofNat i.natAbs

@[simp] theorem bytes_append (a b : Text) : (a ++ b).bytes = a.bytes ++ b.bytes := rfl

@[simp] theorem bytes_empty : (empty : Text).bytes = [] := rfl

@[simp] theorem bytes_ofChars (cs : List Char) :
    (ofChars cs).bytes = cs.flatMap String.utf8EncodeChar := rfl

@[simp] theorem append_empty (t : Text) : t ++ empty = t := by
  ext1; simp

@[simp] theorem empty_append (t : Text) : empty ++ t = t := by
  ext1; simp

theorem append_assoc (a b c : Text) : a ++ b ++ c = a ++ (b ++ c) := by
  ext1; simp [List.append_assoc]

theorem ofChars_append (cs ds : List Char) : ofChars (cs ++ ds) = ofChars cs ++ ofChars ds := by
  ext1; simp

end Text

end Pseudocode
