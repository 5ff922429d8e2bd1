import Gateway.Text.Cut
import Gateway.Text.Utf8

/-!
# Gateway.Form — url-encoded parameters

A query and a form body list parameters as `name=value` joined by `&`. Letters, digits and
`* - . _` stand for themselves, a space is written `+`, every other byte of the UTF-8 text as
`%` and two hexadecimal digits. Reading never fails: an incomplete percent sign stands for
itself, and bytes that are no UTF-8 read as U+FFFD.
-/

set_option autoImplicit false

namespace Gateway

/-- A parameter: its name and its value. -/
abbrev Param := String × String

namespace Form

/-- A byte that is written as itself. -/
def isPlain (b : UInt8) : Bool :=
  let c := Char.ofNat b.toNat
  c.isAlphanum || c == '*' || c == '-' || c == '.' || c == '_'

/-- The hexadecimal digit of a number below 16, as a byte. -/
def hexByte (n : Nat) : UInt8 := UInt8.ofNat (if n < 10 then 0x30 + n else 0x41 + (n - 10))

def encodeByte (b : UInt8) : Bytes :=
  if isPlain b then [b]
  else if b = 0x20 then [0x2B]
  else [0x25, hexByte (b.toNat / 16), hexByte (b.toNat % 16)]

def encodeText (s : String) : Bytes := (Utf8.encode s).flatMap encodeByte

/-- A parameter as it is written. -/
def encodeParam (p : Param) : Bytes := encodeText p.1 ++ 0x3D :: encodeText p.2

/-- The parameters as bytes, joined by ampersands. -/
def encodeBytes (ps : List Param) : Bytes := [0x26].intercalate (ps.map encodeParam)

/-- The parameters as text, joined by ampersands. -/
def encode (ps : List Param) : String := Utf8.decodeLossy (encodeBytes ps)

/-- The value of a hexadecimal digit. -/
def hexValue? (b : UInt8) : Option Nat :=
  if 0x30 ≤ b ∧ b ≤ 0x39 then some (b.toNat - 0x30)
  else if 0x41 ≤ b ∧ b ≤ 0x46 then some (b.toNat - 0x41 + 10)
  else if 0x61 ≤ b ∧ b ≤ 0x66 then some (b.toNat - 0x61 + 10)
  else none

/-- The bytes that percent-encoded bytes stand for. A percent sign without two hexadecimal digits
stands for itself. -/
def percentDecode : Bytes → Bytes
  | [] => []
  | b :: rest =>
    if b = 0x25 then
      match rest with
      | high :: low :: after =>
        match hexValue? high, hexValue? low with
        | some high, some low => UInt8.ofNat (high * 16 + low) :: percentDecode after
        | _, _ => b :: percentDecode (high :: low :: after)
      | rest => b :: percentDecode rest
    else b :: percentDecode rest
termination_by bs => bs.length

/-- The bytes that a written name or value stands for. -/
def decodeBytes (bs : Bytes) : Bytes :=
  percentDecode (bs.map fun b => if b = 0x2B then 0x20 else b)

/-- The text that a written name or value stands for. -/
def decodeText (bs : Bytes) : String := Utf8.decodeLossy (decodeBytes bs)

/-- A written parameter, as its name and value in bytes; without an equals sign the value is
empty. -/
def decodeParamBytes (bs : Bytes) : Bytes × Bytes :=
  let (name, value) := cutAt 0x3D bs
  (decodeBytes name, decodeBytes (value.getD []))

/-- The parameters of a query or form body, names and values in bytes. Empty pieces between
ampersands are no parameters. -/
def decodePairs (bs : Bytes) : List (Bytes × Bytes) :=
  ((splitAt 0x26 bs).filter (!·.isEmpty)).map decodeParamBytes

/-- The parameters of a query or form body. -/
def decode (s : String) : List Param :=
  (decodePairs (Utf8.encode s)).map fun (name, value) =>
    (Utf8.decodeLossy name, Utf8.decodeLossy value)

end Form

end Gateway
