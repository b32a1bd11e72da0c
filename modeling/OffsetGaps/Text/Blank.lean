/-
# Blank characters

The characters of the Unicode property White_Space, and taking them off both
ends of a text. The zero-width space U+200B and the byte-order mark U+FEFF
do not belong to them.

Key definitions: `isBlank`, `trim`.
-/

namespace OffsetGaps

def isBlank (c : Char) : Bool :=
  let n := c.toNat
  (0x09 ≤ n && n ≤ 0x0D) || n == 0x20 || n == 0x85 || n == 0xA0 || n == 0x1680 ||
    (0x2000 ≤ n && n ≤ 0x200A) || n == 0x2028 || n == 0x2029 || n == 0x202F ||
    n == 0x205F || n == 0x3000

/-- A text without the blanks at its two ends. -/
def trim (cs : List Char) : List Char :=
  ((cs.dropWhile isBlank).reverse.dropWhile isBlank).reverse

end OffsetGaps
