/-
ProcBook/Text/Blank.lean

Blanks and trimming.  `isBlank` is the Unicode property White_Space; `trim` removes blanks from both
ends of a text and touches nothing between them.
-/

namespace ProcBook.Text

/-- The characters of the Unicode property White_Space.  Zero-width characters and the separators
U+001C to U+001F are not blanks. -/
def isBlank (c : Char) : Bool :=
  let n := c.toNat
  (0x09 ≤ n && n ≤ 0x0d) || n == 0x20 || n == 0x85 || n == 0xa0 || n == 0x1680 ||
    (0x2000 ≤ n && n ≤ 0x200a) || n == 0x2028 || n == 0x2029 || n == 0x202f || n == 0x205f ||
    n == 0x3000

/-! ### Trimming -/

/-- The text without the blanks at its front. -/
def trimStart (text : List Char) : List Char := text.dropWhile isBlank

/-- The text without the blanks at its end. -/
def trimEnd (text : List Char) : List Char := (text.reverse.dropWhile isBlank).reverse

/-- The text without the blanks at either end. -/
def trim (text : List Char) : List Char := trimEnd (trimStart text)

end ProcBook.Text
