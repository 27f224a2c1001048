/-! # Blanks

The characters that separate words: the ASCII blanks, the four information separators, and the spaces and
line separators of the Unicode standard. The zero-width characters are no blanks. -/

namespace CodeBridge.Text

def isBlank (c : Char) : Bool :=
  let n := c.toNat
  (9 ≤ n && n ≤ 13) || (28 ≤ n && n ≤ 32) || n == 0x85 || n == 0xa0 || n == 0x1680 ||
    (0x2000 ≤ n && n ≤ 0x200a) || n == 0x2028 || n == 0x2029 || n == 0x202f || n == 0x205f || n == 0x3000

/-- A text without the blanks it starts with. -/
def trimLeft (cs : List Char) : List Char :=
  cs.dropWhile isBlank

/-- A text without the blanks it ends with. -/
def trimRight (cs : List Char) : List Char :=
  (cs.reverse.dropWhile isBlank).reverse

/-- A text without the blanks around it. -/
def trim (cs : List Char) : List Char :=
  trimRight (trimLeft cs)

/-- `trim` on strings. -/
def trimmed (s : String) : String :=
  String.ofList (trim s.toList)

end CodeBridge.Text
