/-! # White space

The characters that separate the words of a style sheet and of a setting: the five ASCII format
controls, the four ASCII separators, the space, next line, and every Unicode space separator, line
separator and paragraph separator. The zero-width space and the byte order mark are not among them.
-/

namespace BlockFlow.Text

def isBlank (c : Char) : Bool :=
  let n := c.toNat
  (0x09 ≤ n && n ≤ 0x0D) || (0x1C ≤ n && n ≤ 0x20) || n == 0x85 || n == 0xA0 || n == 0x1680
    || (0x2000 ≤ n && n ≤ 0x200A) || n == 0x2028 || n == 0x2029 || n == 0x202F || n == 0x205F
    || n == 0x3000

/-- The six ASCII characters that separate words: tab, line feed, line tabulation, form feed,
carriage return and space. -/
def isAsciiBlank (c : Char) : Bool :=
  let n := c.toNat
  (0x09 ≤ n && n ≤ 0x0D) || n == 0x20

def skipBlanks (text : List Char) : List Char :=
  text.dropWhile isBlank

def trimBlanks (text : List Char) : List Char :=
  ((skipBlanks text).reverse.dropWhile isBlank).reverse

end BlockFlow.Text
