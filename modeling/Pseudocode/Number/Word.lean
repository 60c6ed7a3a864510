/-!
# Words of 64 bits

The two counts that decide what fits in a word. They are written out, so that the arithmetic of
ranges meets numerals and not powers.
-/

namespace Pseudocode.Word

/-- How many words there are: two to the power of 64. -/
def count : Nat := 18446744073709551616

/-- Half of them, the magnitude of the least word with a sign: two to the power of 63. -/
def half : Nat := 9223372036854775808

end Pseudocode.Word
