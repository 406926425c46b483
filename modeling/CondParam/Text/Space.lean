import CondParam.Text.CodePoint

/-!
# Space characters

`isSpace` is the set of characters that separate words: the ASCII blanks and information
separators, the next-line control, and the Unicode space, line and paragraph separators. The
zero-width space and the byte order mark are not in it.
-/

set_option autoImplicit false

namespace CondParam

/-- Characters that count as white space. -/
def isSpace (c : CodePoint) : Bool :=
  let n := c.toNat
  (0x09 ≤ n && n ≤ 0x0D) || (0x1C ≤ n && n ≤ 0x20) || n == 0x85 || n == 0xA0 || n == 0x1680 ||
    (0x2000 ≤ n && n ≤ 0x200A) || n == 0x2028 || n == 0x2029 || n == 0x202F || n == 0x205F ||
    n == 0x3000

end CondParam
