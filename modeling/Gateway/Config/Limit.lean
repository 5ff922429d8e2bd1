import Gateway.Config.Error
import Gateway.Text.Digits

/-!
# Gateway.Config.Limit — body limits

A body limit is a decimal number of bytes with a unit if need be: `64MiB`, `1.5 kB`, `10g`. Units
are powers of 1000, or of 1024 with an `i`. The product is taken in doubles and cut to a whole
number.
-/

set_option autoImplicit false

namespace Gateway

namespace BodyLimit

/-- A decimal number at the front of a text: its digits, how many of them stand after the point,
and what follows. -/
def readDecimal? (cs : List Char) : Option (Nat × Nat × List Char) :=
  let whole := cs.takeWhile isDigit
  let rest := cs.dropWhile isDigit
  if whole.isEmpty then none
  else match rest with
    | '.' :: after =>
      let fraction := after.takeWhile isDigit
      if fraction.isEmpty then none
      else some (digitsNat (whole ++ fraction), fraction.length, after.dropWhile isDigit)
    | _ => some (digitsNat whole, 0, rest)

/-- The power of a unit, and what follows it. -/
def readUnit : List Char → Nat × List Char
  | [] => (0, [])
  | c :: cs =>
    match c.toLower with
    | 'k' => (1, cs)
    | 'm' => (2, cs)
    | 'g' => (3, cs)
    | 't' => (4, cs)
    | _ => (0, c :: cs)

/-- Whether a text goes on with a letter in either case, and what follows then. -/
def readLetter (letter : Char) : List Char → Bool × List Char
  | [] => (false, [])
  | c :: cs => if c.toLower = letter then (true, cs) else (false, c :: cs)

/-- The factor of a unit. Bytes have no binary form. -/
def factor? (power : Nat) (binary : Bool) : Option Nat :=
  if power = 0 && binary then none else some (Nat.pow (if binary then 1024 else 1000) power)

/-- The number of bytes that a text spells. -/
def read? (s : String) : Option Nat := do
  let (digits, places, rest) ← readDecimal? (trimBlank s).toList
  let (power, rest) := readUnit (rest.dropWhile isBlank)
  let (binary, rest) := readLetter 'i' rest
  let (_, rest) := readLetter 'b' rest
  let factor ← factor? power binary
  let bytes := Float.ofScientific digits true places * Float.ofNat factor
  if rest.isEmpty && bytes < Float.ofNat UInt64.size then some bytes.toUInt64.toNat else none

/-- The body limit that an endpoint declares. -/
def ofDeclared : Option String → Except ConfigError Nat
  | none => .ok defaultBodyLimit
  | some s => match read? s with
    | some bytes => .ok bytes
    | none => .error (.invalidBodyLimit s)

end BodyLimit

end Gateway
