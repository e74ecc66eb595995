import Amalgam.Text.Ranges

/-!
# White space

`isWhiteSpace` is the Unicode property of that name.  `isBlank` adds the four information
separators U+001C to U+001F; it is the set that language tags, keys and signatures use.
-/

set_option autoImplicit false

namespace Amalgam

/-- The characters with the Unicode property `White_Space`. -/
def whiteSpace : Ranges :=
  [(0x09, 0x0D), (0x20, 0x20), (0x85, 0x85), (0xA0, 0xA0), (0x1680, 0x1680), (0x2000, 0x200A),
   (0x2028, 0x2029), (0x202F, 0x202F), (0x205F, 0x205F), (0x3000, 0x3000)]

def isWhiteSpace (c : Char) : Bool := whiteSpace.holds c

/-- White space and the information separators. -/
def isBlank (c : Char) : Bool :=
  isWhiteSpace c || (0x1C ≤ c.toNat && c.toNat ≤ 0x1F)

/-- A text without the characters of `p` at either end. -/
def trimBoth (p : Char → Bool) (cs : List Char) : List Char :=
  ((cs.dropWhile p).reverse.dropWhile p).reverse

/-- A text without blanks at either end. -/
def trimBlanks (cs : List Char) : List Char := trimBoth isBlank cs

end Amalgam
