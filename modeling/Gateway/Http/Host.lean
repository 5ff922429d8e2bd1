import Gateway.Domain.Name
import Gateway.Http.Escape
import Gateway.Text.Digits
import Gateway.Text.Quoted

/-!
# Gateway.Http.Host — hosts of absolute urls

The host of a web url is a domain name, four numbers that make an IPv4 address, or an IPv6 address
in brackets. A name that ends in a number must be an IPv4 address; other names are kept in their
ASCII form. The host of any other url is an address in brackets or a text.
-/

set_option autoImplicit false

namespace Gateway

/-- Why a text is no absolute url. -/
inductive UrlError
  | noBase
  | emptyHost
  | hostName
  | hostCharacter
  | portNumber
  | ipv4
  | ipv6
  deriving DecidableEq, Repr

/-- The wording of a refusal. -/
def UrlError.message : UrlError → String
  | .noBase => "relative URL without a base"
  | .emptyHost => "empty host"
  | .hostName => "invalid international domain name"
  | .hostCharacter => "invalid domain character"
  | .portNumber => "invalid port number"
  | .ipv4 => "invalid IPv4 address"
  | .ipv6 => "invalid IPv6 address"

/-- A host: a name, or an address. -/
inductive Host
  | name (s : String)
  | ipv4 (address : Nat)
  | ipv6 (pieces : List Nat)
  deriving DecidableEq, Repr

namespace Host

/-- The value of a hexadecimal digit. -/
def hexDigit? (c : Char) : Option Nat := Form.hexValue? (UInt8.ofNat (min c.toNat 255))

/-- The number that digits of a radix spell. -/
def readRadix? (radix : Nat) (cs : List Char) : Option Nat :=
  cs.foldlM (fun n c => do
    let d ← hexDigit? c
    if d < radix then some (n * radix + d) else none) 0

/-- A part of an IPv4 address: decimal, octal after a zero, or hexadecimal after `0x`. -/
def ipv4Part? : List Char → Option Nat
  | [] => none
  | '0' :: 'x' :: digits | '0' :: 'X' :: digits => readRadix? 16 digits
  | ['0'] => some 0
  | '0' :: digits => readRadix? 8 digits
  | digits => readRadix? 10 digits

/-- The parts between the dots of a name; a dot at the end does not count. -/
def labels (name : List Char) : List (List Char) :=
  let parts := splitAt '.' name
  if 1 < parts.length ∧ parts.getLast? = some [] then parts.dropLast else parts

/-- Whether a name looks like an IPv4 address. -/
def endsInNumber (name : List Char) : Bool :=
  match (labels name).getLast? with
  | none | some [] => false
  | some label => label.all isDigit || (ipv4Part? label).isSome

/-- The IPv4 address that a name spells: up to four parts, of which the last fills what is left. -/
def readIpv4? (name : List Char) : Option Nat := do
  let parts ← (labels name).mapM ipv4Part?
  let last ← parts.getLast?
  let front := parts.dropLast
  if 3 < front.length ∨ front.any (255 < ·) ∨ Nat.pow 256 (4 - front.length) ≤ last then none
  else some (front.foldl (fun n p => n * 256 + p) 0 * Nat.pow 256 (4 - front.length) + last)

/-- A part of the dotted end of an IPv6 address. -/
def octet? (cs : List Char) : Option Nat :=
  if cs.isEmpty || !cs.all isDigit || (1 < cs.length && cs.head? = some '0') then none
  else some (digitsNat cs) |>.filter (· < 256)

/-- The two pieces at the dotted end of an IPv6 address. -/
def dottedPieces? (cs : List Char) : Option (List Nat) :=
  match splitAt '.' cs with
  | [a, b, c, d] => do
    return [(← octet? a) * 256 + (← octet? b), (← octet? c) * 256 + (← octet? d)]
  | _ => none

/-- A piece of an IPv6 address: up to four hexadecimal digits. -/
def piece? (cs : List Char) : Option Nat :=
  if cs.isEmpty || 4 < cs.length then none else readRadix? 16 cs

/-- The pieces of one side of an IPv6 address. Only the last of the `final` side may be dotted. -/
def pieces? (final : Bool) (cs : List Char) : Option (List Nat) :=
  if cs.isEmpty then some []
  else
    let groups := splitAt ':' cs
    groups.zipIdx.foldlM (fun pieces (group, i) =>
      if final && i + 1 == groups.length && group.contains '.' then
        (dottedPieces? group).map (pieces ++ ·)
      else (piece? group).map fun p => pieces ++ [p]) []

/-- The eight pieces of an IPv6 address. A double colon stands for the zeros that are left out. -/
def readIpv6? (cs : List Char) : Option (List Nat) := do
  match afterFirst [':', ':'] cs with
  | none =>
    let pieces ← pieces? true cs
    if pieces.length = 8 then some pieces else none
  | some right =>
    let left ← pieces? false (cs.take (cs.length - right.length - 2))
    let right ← pieces? true right
    if left.length + right.length ≤ 7 then
      some (left ++ List.replicate (8 - left.length - right.length) 0 ++ right)
    else none

/-- Reads the host of a web url. -/
def read (cs : List Char) : Except UrlError Host :=
  match cs with
  | '[' :: rest =>
    if rest.getLast? = some ']' then
      match readIpv6? rest.dropLast with
      | some pieces => .ok (.ipv6 pieces)
      | none => .error .ipv6
    else .error .ipv6
  | cs =>
    let decoded := Utf8.decode? (Form.percentDecode (Utf8.encode (String.ofList cs)))
    match decoded.bind fun name => Domain.ascii? name.toList with
    | none => .error .hostName
    | some ascii =>
      if ascii.isEmpty then .error .emptyHost
      else if endsInNumber ascii then
        match readIpv4? ascii with
        | some address => .ok (.ipv4 address)
        | none => .error .ipv4
      else .ok (.name (String.ofList ascii))

/-- Reads the host of a url that is not of the web: any text without certain characters, which may
be empty. -/
def readOther (cs : List Char) : Except UrlError Host :=
  match cs with
  | '[' :: _ => read cs
  | cs =>
    if cs.any fun c => c.toNat == 0 || " #/:<>?@[\\]^|".toList.contains c then
      .error .hostCharacter
    else .ok (.name (percentEncode Escape.anywhere (String.ofList cs)))

/-- The longest run of zeros in an IPv6 address, as its place and length; the first of several. -/
def zeroRun (pieces : List Nat) : Nat × Nat :=
  (List.range pieces.length).foldl (fun (best : Nat × Nat) i =>
    let run := ((pieces.drop i).takeWhile (· = 0)).length
    if best.2 < run then (i, run) else best) (0, 0)

/-- Pieces with colons between them. -/
def piecesText (pieces : List Nat) : String := ":".intercalate (pieces.map hexDigits)

/-- An IPv6 address as text: the longest run of two or more zeros is a double colon. -/
def ipv6Text (pieces : List Nat) : String :=
  let (i, run) := zeroRun pieces
  if run < 2 then piecesText pieces
  else piecesText (pieces.take i) ++ "::" ++ piecesText (pieces.drop (i + run))

def text : Host → String
  | .name s => s
  | .ipv4 n => ".".intercalate
      ([n >>> 24, (n >>> 16) % 256, (n >>> 8) % 256, n % 256].map fun part => toString part)
  | .ipv6 pieces => "[" ++ ipv6Text pieces ++ "]"

end Host

end Gateway
