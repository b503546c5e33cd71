/-!
Blank characters of every script, and the texts that remain without them.
-/

set_option autoImplicit false
set_option relaxedAutoImplicit false

namespace TypeLang.Text

/-- Blanks, tabulators, line and paragraph ends, in every script. -/
def isBlank (c : Char) : Bool :=
  let n := c.toNat
  (9 ≤ n && n ≤ 13) || n == 0x20 || n == 0x85 || n == 0xa0 || n == 0x1680 ||
    (0x2000 ≤ n && n ≤ 0x200a) || n == 0x2028 || n == 0x2029 || n == 0x202f || n == 0x205f ||
    n == 0x3000

/-- A text without the blanks before it. -/
def trimStart (text : List Char) : List Char := text.dropWhile isBlank

/-- A text without the blanks on either side. -/
def trim (text : List Char) : List Char := (trimStart (trimStart text).reverse).reverse

end TypeLang.Text
