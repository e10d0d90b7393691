/-!
# `Text.Blank` — blank characters and trimmed texts

The characters with the Unicode property `White_Space`, and the removal of them from both ends of a
text. The property is wider than the four blanks of ASCII: it holds the ideographic space but not
the zero width space.
-/

namespace Marshal.Text

/-- Whether a character has the property `White_Space`. -/
def isBlank (c : Char) : Bool :=
  let n := c.toNat
  (0x9 ≤ n && n ≤ 0xD) || n == 0x20 || n == 0x85 || n == 0xA0 || n == 0x1680 ||
    (0x2000 ≤ n && n ≤ 0x200A) || n == 0x2028 || n == 0x2029 || n == 0x202F || n == 0x205F ||
    n == 0x3000

/-- The characters without the blanks at both ends. -/
def trimChars (s : List Char) : List Char :=
  ((s.dropWhile isBlank).reverse.dropWhile isBlank).reverse

/-- A text without the blanks at both ends. -/
def trim (s : String) : String := String.ofList (trimChars s.toList)

/-- Whether nothing but blanks stands in a text. -/
def isBlankText (s : String) : Bool := s.toList.all isBlank

end Marshal.Text
