/-!
# Gateway.Text.Digits — whole numbers in text

Array indices and statuses may be spelled as text: ASCII digits, after a plus sign if need be. A
number that does not fit its place is none.
-/

set_option autoImplicit false

namespace Gateway

/-- An ASCII digit. -/
def isDigit (c : Char) : Bool := '0' ≤ c && c ≤ '9'

/-- The number that digits spell. -/
def digitsNat (cs : List Char) : Nat :=
  cs.foldl (fun n c => n * 10 + (c.toNat - '0'.toNat)) 0

/-- The number below `bound` that a text spells. -/
def readNat? (bound : Nat) (s : String) : Option Nat :=
  let digits := match s.toList with
    | '+' :: rest => rest
    | cs => cs
  if !digits.isEmpty && digits.all isDigit && digitsNat digits < bound then
    some (digitsNat digits)
  else none

end Gateway
