import Gateway.Decimal.Shortest
import Gateway.Json.Value

/-!
# Gateway.Json.Writer — compact JSON

The one written form of a value: no spaces, members in their order, characters outside ASCII as
they are. A double has the fewest digits that read back; it is written out when its decimal
exponent lies between -5 and 15, a whole one then ends in `.0`, and with an exponent otherwise.
-/

set_option autoImplicit false

namespace Gateway

def zeros (n : Nat) : String := String.ofList (List.replicate n '0')

/-- The written form of a positive decimal: positional near one, else with an exponent that
always shows its sign. -/
def Decimal.written (d : Decimal) : String :=
  let digits := Nat.toDigits 10 d.digits
  let point : Int := digits.length + d.exponent
  if 0 ≤ d.exponent ∧ point ≤ 16 then
    String.ofList digits ++ zeros d.exponent.toNat ++ ".0"
  else if 0 < point ∧ point ≤ 16 then
    String.ofList (digits.take point.toNat) ++ "." ++ String.ofList (digits.drop point.toNat)
  else if -5 < point ∧ point ≤ 0 then
    "0." ++ zeros (-point).toNat ++ String.ofList digits
  else
    let lead := String.ofList (digits.take 1)
    let rest := if digits.length ≤ 1 then "" else "." ++ String.ofList (digits.drop 1)
    let exponent := point - 1
    lead ++ rest ++ (if exponent < 0 then "e-" else "e+") ++ toString exponent.natAbs

/-- The written form of a finite double. -/
def writtenDouble (bits : UInt64) : String :=
  let sign := if bits.toNat / Nat.pow 2 63 = 1 then "-" else ""
  let magnitude := bits.toNat % Nat.pow 2 63
  if magnitude = 0 then sign ++ "0.0"
  else sign ++ (Decimal.shortest (UInt64.ofNat magnitude)).written

/-- The written form of a number. -/
def Number.written : Number → String
  | .int n => toString n
  | .float bits => writtenDouble bits

namespace Json

/-- The last two hexadecimal digits of a control character's escape. -/
def controlEscape (c : Char) : String :=
  let digits := Nat.toDigits 16 c.toNat
  "\\u" ++ String.ofList (List.replicate (4 - digits.length) '0' ++ digits)

/-- One character of a string. -/
def writtenChar (c : Char) : String :=
  match c with
  | '"' => "\\\""
  | '\\' => "\\\\"
  | '\x08' => "\\b"
  | '\x0c' => "\\f"
  | '\n' => "\\n"
  | '\r' => "\\r"
  | '\t' => "\\t"
  | c => if c.toNat < 0x20 then controlEscape c else c.toString

/-- The written form of a string. -/
def writtenString (s : String) : String :=
  "\"" ++ String.join (s.toList.map writtenChar) ++ "\""

mutual

/-- The compact written form of a value. -/
def compact : Json → String
  | .null => "null"
  | .bool b => if b then "true" else "false"
  | .number n => n.written
  | .string s => writtenString s
  | .array items => "[" ++ ",".intercalate (compactItems items) ++ "]"
  | .object members => "\x7b" ++ ",".intercalate (compactMembers members) ++ "\x7d"

/-- The written forms of an array's items. -/
def compactItems : List Json → List String
  | [] => []
  | item :: rest => compact item :: compactItems rest

/-- The written forms of an object's members. -/
def compactMembers : List (String × Json) → List String
  | [] => []
  | (key, value) :: rest => (writtenString key ++ ":" ++ compact value) :: compactMembers rest

end

end Json

end Gateway
