/-!
# Gateway.Text.Utf8 — bytes as text, text as bytes

Bodies and header values are bytes; expressions see text. `encode` writes a text as UTF-8.
Reading goes through `units`, which cuts bytes into characters and *junk*: a longest run of
bytes that starts a well-formed character and does not finish it, or a byte that starts none.
`decodeLossy` shows each piece of junk as U+FFFD, `decode?` refuses it.
-/

set_option autoImplicit false

namespace Gateway

/-- A message body or a header value: any sequence of bytes. -/
abbrev Bytes := List UInt8

namespace Utf8

/-- The UTF-8 form of a text. -/
def encode (s : String) : Bytes := s.toList.flatMap String.utf8EncodeChar

/-- For the first byte of a character of several bytes: how many continuation bytes follow it,
and the least and greatest value of the first of them. The bounds keep out overlong forms,
surrogates and code points above U+10FFFF. -/
def lead (b : UInt8) : Option (Nat × UInt8 × UInt8) :=
  if b < 0xC2 then none
  else if b < 0xE0 then some (1, 0x80, 0xBF)
  else if b = 0xE0 then some (2, 0xA0, 0xBF)
  else if b = 0xED then some (2, 0x80, 0x9F)
  else if b < 0xF0 then some (2, 0x80, 0xBF)
  else if b = 0xF0 then some (3, 0x90, 0xBF)
  else if b < 0xF4 then some (3, 0x80, 0xBF)
  else if b = 0xF4 then some (3, 0x80, 0x8F)
  else none

/-- The payload bits of a first byte that `n` continuation bytes follow. -/
def payload (n : Nat) (b : UInt8) : Nat := b.toNat % Nat.pow 2 (6 - n)

/-- Reads `n` more continuation bytes onto the code point read so far. Stops before a byte that
is none, so that byte starts the next unit. -/
def continuation : Nat → Nat → Bytes → Option Nat × Bytes
  | 0, code, bs => (some code, bs)
  | _ + 1, _, [] => (none, [])
  | n + 1, code, b :: bs =>
    if 0x80 ≤ b ∧ b ≤ 0xBF then continuation n (code * 64 + b.toNat % 64) bs
    else (none, b :: bs)

/-- The first unit of `b :: bs`, and what follows it. -/
def unit (b : UInt8) (bs : Bytes) : Option Char × Bytes :=
  if b < 0x80 then (some (Char.ofNat b.toNat), bs)
  else match lead b, bs with
    | some (n, low, high), c :: rest =>
      if low ≤ c ∧ c ≤ high then
        let (code, rest) := continuation (n - 1) (payload n b * 64 + c.toNat % 64) rest
        (code.map Char.ofNat, rest)
      else (none, bs)
    | _, _ => (none, bs)

theorem continuation_length_le (n code : Nat) (bs : Bytes) :
    (continuation n code bs).2.length ≤ bs.length := by
  fun_induction continuation n code bs <;> grind

theorem unit_length_le (b : UInt8) (bs : Bytes) : (unit b bs).2.length ≤ bs.length := by
  unfold unit
  split
  · simp
  · split
    · split
      · simp only [List.length_cons]
        exact Nat.le_succ_of_le (continuation_length_le ..)
      · simp
    · simp

/-- The bytes cut into characters and junk (`none`), in order. -/
def units : Bytes → List (Option Char)
  | [] => []
  | b :: bs => (unit b bs).1 :: units (unit b bs).2
termination_by bs => bs.length
decreasing_by exact Nat.lt_succ_of_le (unit_length_le b bs)

/-- The text of the bytes, with U+FFFD for each piece of junk. -/
def decodeLossy (bs : Bytes) : String :=
  String.ofList ((units bs).map (·.getD '\uFFFD'))

/-- The text of the bytes, when they are UTF-8 throughout. -/
def decode? (bs : Bytes) : Option String :=
  ((units bs).mapM id).map String.ofList

end Utf8

end Gateway
