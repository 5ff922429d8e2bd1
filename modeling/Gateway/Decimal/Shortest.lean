/-!
# Gateway.Decimal.Shortest — the fewest digits that read back

A finite double is `mantissa · 2 ^ exponent`. The reals that round to it form an interval around
it, which holds its ends exactly when the mantissa is even. `shortest` looks for the coarsest
decimal grid that meets the interval: for one digit, two digits, and so on, it tests the two grid
points next to the value, and takes the nearer of those that lie in the interval. All arithmetic
is on natural numbers, so the answer is exact.
-/

set_option autoImplicit false

namespace Gateway

/-- The number `digits · 10 ^ exponent`. -/
structure Decimal where
  digits : Nat
  exponent : Int
  deriving Repr, DecidableEq

/-- A positive double and the interval of reals that round to it, in quarters of its unit in the
last place: the double is `4 · mantissa`, the interval `[4 · mantissa - below, 4 · mantissa + 2]`,
and a quarter is `2 ^ exponent`. -/
structure RoundingInterval where
  mantissa : Nat
  below : Nat
  exponent : Int
  deriving Repr, DecidableEq

namespace RoundingInterval

/-- The interval of the positive finite double with these bits. The gap below a power of two is
half the gap above it, unless both are the least gap there is. -/
def ofBits (bits : UInt64) : RoundingInterval :=
  let exponent : Nat := (bits.toNat / Nat.pow 2 52) % Nat.pow 2 11
  let fraction : Nat := bits.toNat % Nat.pow 2 52
  if exponent = 0 then ⟨fraction, 2, -1076⟩
  else
    let below := if fraction = 0 ∧ 1 < exponent then 1 else 2
    ⟨Nat.pow 2 52 + fraction, below, (exponent : Int) - 1077⟩

/-- A quarter and the grid unit `10 ^ k` over a common denominator. -/
def scales (r : RoundingInterval) (k : Int) : Nat × Nat :=
  (Nat.pow 2 r.exponent.toNat * Nat.pow 10 (-k).toNat,
    Nat.pow 2 (-r.exponent).toNat * Nat.pow 10 k.toNat)

/-- Whether `d · 10 ^ k` rounds to the double. -/
def holds (r : RoundingInterval) (d : Nat) (k : Int) : Bool :=
  let (quarter, unit) := r.scales k
  let low := (4 * r.mantissa - r.below) * quarter
  let high := (4 * r.mantissa + 2) * quarter
  if r.mantissa % 2 = 0 then low ≤ d * unit && d * unit ≤ high
  else low < d * unit && d * unit < high

/-- The exponent of the leading decimal digit of the double. -/
def magnitude (r : RoundingInterval) : Int :=
  let (quarter, unit) := r.scales (-400)
  ((Nat.toDigits 10 (4 * r.mantissa * quarter / unit)).length : Int) - 401

/-- The point of the grid `10 ^ k` that rounds to the double and is nearest to it, if any: of two
equally near the even one. -/
def onGrid (r : RoundingInterval) (k : Int) : Option Nat :=
  let (quarter, unit) := r.scales k
  let value := 4 * r.mantissa * quarter
  let d := value / unit
  let excess := value % unit
  match r.holds d k, r.holds (d + 1) k with
  | true, true =>
    if 2 * excess < unit || (2 * excess == unit && d % 2 == 0) then some d else some (d + 1)
  | true, false => some d
  | false, true => some (d + 1)
  | false, false => none

/-- The first grid among `tries` finer and finer ones that meets the interval. -/
def search (r : RoundingInterval) (k : Int) : Nat → Decimal
  | 0 => ⟨(r.onGrid k).getD 0, k⟩
  | tries + 1 =>
    match r.onGrid k with
    | some d => ⟨d, k⟩
    | none => r.search (k - 1) tries

end RoundingInterval

/-- The number `digits · 10 ^ exponent` without zeros at the end of its digits. -/
def Decimal.normalize (digits : Nat) (exponent : Int) : Decimal :=
  if digits % 10 = 0 ∧ 0 < digits then Decimal.normalize (digits / 10) (exponent + 1)
  else ⟨digits, exponent⟩
termination_by digits
decreasing_by omega

/-- The shortest decimal that reads back as the positive finite double with these bits. Seventeen
digits always suffice. -/
def Decimal.shortest (bits : UInt64) : Decimal :=
  let r := RoundingInterval.ofBits bits
  let d := r.search r.magnitude 16
  Decimal.normalize d.digits d.exponent

end Gateway
