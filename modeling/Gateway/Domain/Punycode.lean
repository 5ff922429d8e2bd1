/-!
# Gateway.Domain.Punycode — names beyond ASCII in ASCII

A part of a domain name is written in ASCII as its ASCII characters, a hyphen, and a number for
each other character: how far it is from the one before it, counted over all places where it could
stand. The numbers have digits `a` to `z` and `0` to `9`, least ones first; `threshold` tells from
which digit on a number ends, and adapts to the size of the numbers seen.
-/

set_option autoImplicit false

namespace Gateway

namespace Punycode

/-- The number of digits. -/
def base : Nat := 36

/-- The digit below which the `k`-th digit ends a number. -/
def threshold (bias k : Nat) : Nat := min (max (base * k - bias) 1) 26

/-- Reduces a distance to the size of a single digit, counting the steps. -/
def reduce (distance steps : Nat) : Nat × Nat :=
  if distance ≤ 455 then (distance, steps) else reduce (distance / 35) (steps + 1)
termination_by distance

/-- The bias after a distance, with the number of characters so far. -/
def adapt (distance count : Nat) (isFirst : Bool) : Nat :=
  let distance := if isFirst then distance / 700 else distance / 2
  let (small, steps) := reduce (distance + distance / count) 0
  base * steps + 36 * small / (small + 38)

/-- The character of a digit. -/
def digitChar (d : Nat) : Char := Char.ofNat (if d < 26 then 'a'.toNat + d else '0'.toNat + d - 26)

/-- The digit of a small character. -/
def digit? (c : Char) : Option Nat :=
  if 'a' ≤ c ∧ c ≤ 'z' then some (c.toNat - 'a'.toNat)
  else if '0' ≤ c ∧ c ≤ '9' then some (c.toNat - '0'.toNat + 26)
  else none

theorem threshold_bounds (bias k : Nat) : 1 ≤ threshold bias k ∧ threshold bias k ≤ 26 := by
  unfold threshold
  omega

/-! ## Writing -/

/-- The digits of a number, from the `k`-th one on. -/
def digits (bias k n : Nat) : List Char :=
  let t := threshold bias k
  if n < t then [digitChar n]
  else digitChar (t + (n - t) % (base - t)) :: digits bias (k + 1) ((n - t) / (base - t))
termination_by n
decreasing_by
  have := threshold_bounds bias k
  exact Nat.lt_of_le_of_lt (Nat.div_le_self ..) (by omega)

/-- What has been written: the number of characters, the distance that has not been written yet,
the bias, and the text. -/
structure Written where
  count : Nat
  distance : Nat
  bias : Nat
  text : List Char

/-- Passes one character on the way through a name in search of the code point `n`. -/
def Written.pass (ascii n : Nat) (w : Written) (c : Char) : Written :=
  if c.toNat < n then { w with distance := w.distance + 1 }
  else if c.toNat = n then
    { count := w.count + 1, distance := 0,
      bias := adapt w.distance (w.count + 1) (w.count = ascii),
      text := w.text ++ digits w.bias 1 w.distance }
  else w

/-- Writes the places of some code points, in rising order, all above `n`. -/
def writePlaces (cs : List Char) (ascii n : Nat) (w : Written) : List Nat → Written
  | [] => w
  | m :: ms =>
    let w := cs.foldl (Written.pass ascii m)
      { w with distance := w.distance + (m - n) * (w.count + 1) }
    writePlaces cs ascii (m + 1) { w with distance := w.distance + 1 } ms

/-- A part of a name in ASCII. -/
def encode (cs : List Char) : List Char :=
  let ascii := cs.filter (·.toNat < 0x80)
  let others := ((cs.map Char.toNat).filter (0x80 ≤ ·)).mergeSort.eraseDups
  ascii ++ (if ascii.isEmpty then [] else ['-'])
    ++ (writePlaces cs ascii.length 0x80 ⟨ascii.length, 0, 72, []⟩ others).text

/-! ## Reading -/

def numberBound : Nat := UInt32.size

/-- Reads a number onto `n`, from its `k`-th digit on, which counts `weight`. -/
def readNumber? (bias k weight n : Nat) : List Char → Option (Nat × List Char)
  | [] => none
  | c :: cs => do
    let d ← digit? c
    let n := n + d * weight
    if numberBound ≤ n then none
    else if d < threshold bias k then some (n, cs)
    else
      let weight := weight * (base - threshold bias k)
      if numberBound ≤ weight then none else readNumber? bias (k + 1) weight n cs

theorem readNumber?_length {bias k weight n m : Nat} {cs rest : List Char}
    (h : readNumber? bias k weight n cs = some (m, rest)) : rest.length < cs.length := by
  induction cs generalizing k weight n with
  | nil => simp [readNumber?] at h
  | cons c cs ih =>
    simp only [readNumber?, Option.bind_eq_bind, Option.bind_eq_some_iff] at h
    obtain ⟨d, -, h⟩ := h
    split at h
    · simp at h
    · split at h
      · obtain ⟨-, rfl⟩ := by simpa using h
        simp
      · split at h
        · simp at h
        · have := ih h
          simp only [List.length_cons]
          omega

/-- Reads places and puts their characters into a name. `code` is the code point to put in next,
and `place` the first place for it. -/
def readPlaces? (bias code place : Nat) (name : List Char) (cs : List Char) :
    Option (List Char) :=
  match cs with
  | [] => some name
  | c :: cs =>
    match _h : readNumber? bias 1 1 place (c :: cs) with
    | none => none
    | some (n, rest) =>
      let count := name.length + 1
      let code := code + n / count
      if code.isValidChar then
        readPlaces? (adapt (n - place) count (place = 0)) code (n % count + 1)
          (name.insertIdx (n % count) (Char.ofNat code)) rest
      else none
termination_by cs.length
decreasing_by exact readNumber?_length _h

/-- The part of a name that is written in ASCII. -/
def decode? (cs : List Char) : Option (List Char) :=
  let after := (cs.reverse.takeWhile (· ≠ '-')).reverse
  if after.length < cs.length then
    match cs.take (cs.length - after.length - 1) with
    | [] => none
    | ascii => readPlaces? 72 0x80 0 ascii after
  else readPlaces? 72 0x80 0 [] cs

end Punycode

end Gateway
