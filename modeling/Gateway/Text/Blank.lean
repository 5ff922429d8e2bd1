/-!
# Gateway.Text.Blank — white space

The white space of Unicode (property `White_Space`), as interpolations skip it and names are
trimmed of it. `Char.isWhitespace` knows four of these characters only.
-/

set_option autoImplicit false

namespace Gateway

/-- White space in the sense of Unicode. -/
def isBlank (c : Char) : Bool :=
  let n := c.toNat
  (0x09 ≤ n && n ≤ 0x0D) || n == 0x20 || n == 0x85 || n == 0xA0 || n == 0x1680
    || (0x2000 ≤ n && n ≤ 0x200A) || n == 0x2028 || n == 0x2029 || n == 0x202F || n == 0x205F
    || n == 0x3000

/-- The text without the characters of class `p` at either end. -/
def trimBoth (p : Char → Bool) (s : String) : String :=
  String.ofList (((s.toList.dropWhile p).reverse.dropWhile p).reverse)

/-- The text without the characters of class `p` at its end. -/
def trimRight (p : Char → Bool) (s : String) : String :=
  String.ofList ((s.toList.reverse.dropWhile p).reverse)

/-- The text without white space at either end. -/
def trimBlank (s : String) : String := trimBoth isBlank s

end Gateway
