/-!
# Blanks

The white space that is trimmed from both ends of a setting: the characters with the property `White_Space`, of which
there are twenty-five.
-/

namespace Interpose.Text

/-- White space: tab to carriage return, the space, next line, the no-break space, the spaces of typography, and the two
separators of lines and paragraphs. -/
def isBlank (c : Char) : Bool :=
  let n := c.toNat
  (0x9 ≤ n && n ≤ 0xD) || n == 0x20 || n == 0x85 || n == 0xA0 || n == 0x1680 || (0x2000 ≤ n && n ≤ 0x200A) ||
    n == 0x2028 || n == 0x2029 || n == 0x202F || n == 0x205F || n == 0x3000

/-- A text without the blanks it begins and ends with. -/
def trimBlanks (cs : List Char) : List Char :=
  ((cs.dropWhile isBlank).reverse.dropWhile isBlank).reverse

end Interpose.Text
