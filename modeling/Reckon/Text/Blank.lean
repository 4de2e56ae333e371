/-!
# Blank characters

The blanks are the characters with the Unicode `White_Space` property: the ASCII controls
from tab to carriage return, the space, the next-line control, the no-break space, the
Ogham space mark, the typographic spaces from the en quad to the hair space, the line and
paragraph separators, the narrow no-break space, the medium mathematical space and the
ideographic space. The zero-width space is not among them.
-/

namespace Reckon.Text

/-- Whether `c` is a blank: a character with the Unicode `White_Space` property. -/
def isBlank (c : Char) : Bool :=
  let n := c.toNat
  (0x09 ≤ n && n ≤ 0x0D) || n == 0x20 || n == 0x85 || n == 0xA0 || n == 0x1680 ||
    (0x2000 ≤ n && n ≤ 0x200A) || n == 0x2028 || n == 0x2029 || n == 0x202F ||
    n == 0x205F || n == 0x3000

end Reckon.Text
