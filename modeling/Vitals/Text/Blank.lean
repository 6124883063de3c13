/-!
# Blank characters

The characters with the Unicode property `White_Space`, and the two questions the library asks
about them: whether a text is blank, and what remains of it behind its leading blanks.
-/

namespace Vitals.Text

/-- The characters of the Unicode property `White_Space`. -/
def isBlank (c : Char) : Bool :=
  let code := c.toNat
  (0x09 ≤ code && code ≤ 0x0D) || code == 0x20 || code == 0x85 || code == 0xA0
    || code == 0x1680 || (0x2000 ≤ code && code ≤ 0x200A) || code == 0x2028 || code == 0x2029
    || code == 0x202F || code == 0x205F || code == 0x3000

/-- A text of blank characters only; the empty text is one. -/
def isBlankText (text : String) : Bool :=
  text.toList.all isBlank

/-- What follows the leading blanks. -/
def dropBlanks (chars : List Char) : List Char :=
  chars.dropWhile isBlank

end Vitals.Text
