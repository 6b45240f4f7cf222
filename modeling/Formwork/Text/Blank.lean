/-!
# Blank characters

The characters that count as white space when lines are trimmed: the `White_Space`
property of Unicode, which is wider than the four characters that markup treats as
space.
-/

namespace Formwork

set_option autoImplicit false

namespace Text

/-- Whether a character has the Unicode property `White_Space`. -/
def isBlank (c : Char) : Bool :=
  let n := c.toNat
  (9 ≤ n && n ≤ 13) || n == 0x20 || n == 0x85 || n == 0xA0 || n == 0x1680 ||
    (0x2000 ≤ n && n ≤ 0x200A) || n == 0x2028 || n == 0x2029 || n == 0x202F ||
    n == 0x205F || n == 0x3000

/-- Leave out blank characters at both ends. -/
def trim (cs : List Char) : List Char :=
  ((cs.dropWhile isBlank).reverse.dropWhile isBlank).reverse

/-- Whether a text holds nothing but blank characters. -/
def allBlank (cs : List Char) : Bool := cs.all isBlank

end Text

end Formwork
