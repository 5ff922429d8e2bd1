import Gateway.Json.Value

/-!
# Gateway.Json.Numeral — the value of a written number

A number is written as digits with an optional fraction and an optional exponent. Its value is
found in one pass with a 64-bit significand: digits are taken as long as the significand fits;
later digits of the whole part count as powers of ten, later digits of the fraction are dropped.
The significand becomes a double, which one multiplication or division by a power of ten scales.
So a long numeral may differ from the nearest double in its last place, and that is the value
it has everywhere in the gateway.
-/

set_option autoImplicit false

namespace Gateway

/-- A number as it is written. -/
structure Numeral where
  negative : Bool
  whole : List Nat
  fraction : List Nat
  /-- Whether a point is written. -/
  hasFraction : Bool
  exponent : Option Int
  deriving Repr, DecidableEq

namespace Numeral

/-- Takes digits onto a significand while it stays below `2 ^ 64`; returns the digits left. -/
def absorb : Nat → List Nat → Nat × List Nat
  | significand, [] => (significand, [])
  | significand, d :: ds =>
    if significand * 10 + d < 2 ^ 64 then absorb (significand * 10 + d) ds
    else (significand, d :: ds)

/-- `x · 10 ^ exponent`; none when the result is out of range. Exponents beyond those of a double
are first brought into range by steps of 308, which leave zero alone. -/
def scale (x : Float) (exponent : Int) : Option Float :=
  if exponent.natAbs ≤ 308 then
    let power := Float.ofScientific 1 false exponent.natAbs
    if 0 ≤ exponent then
      let y := x * power
      if y.isInf then none else some y
    else some (x / power)
  else if x == 0 then some x
  else if 0 ≤ exponent then none
  else scale (x / Float.ofScientific 1 false 308) (exponent + 308)
termination_by exponent.natAbs
decreasing_by omega

/-- The double with a sign and a magnitude. -/
def signed (negative : Bool) (x : Float) : Number :=
  .float (if negative then -x else x).toBits

/-- The value of an integer that fits its significand. Zero with a sign, and what is below the
signed range, are doubles. -/
def integerValue (negative : Bool) (significand : Nat) : Number :=
  if !negative then .int significand
  else if 0 < significand ∧ significand ≤ Nat.pow 2 63 then .int (-significand)
  else signed true (UInt64.ofNat significand).toFloat

/-- The value of a numeral; none when it is out of the range of doubles. -/
def value? (n : Numeral) : Option Number :=
  let (significand, left) := absorb 0 n.whole
  if left.isEmpty && !n.hasFraction && n.exponent.isNone then
    some (integerValue n.negative significand)
  else
    let (significand, dropped) := absorb significand n.fraction
    let taken := n.fraction.length - dropped.length
    let exponent : Int := left.length - taken + n.exponent.getD 0
    (scale (UInt64.ofNat significand).toFloat exponent).map (signed n.negative)

end Numeral

end Gateway
