import Gateway.Http.Host

/-!
# Gateway.Http.Socket — socket addresses

Where a server listens: an IPv4 address, or an IPv6 address in brackets with a scope if need be,
and after a colon the number of the service.
-/

set_option autoImplicit false

namespace Gateway

/-- A socket address. -/
structure Socket where
  host : Host
  scope : Nat := 0
  portNumber : Nat
  deriving DecidableEq, Repr

namespace Socket

/-- A decimal number below a bound. -/
def number? (bound : Nat) (cs : List Char) : Option Nat :=
  if !cs.isEmpty && cs.all isDigit && digitsNat cs < bound then some (digitsNat cs) else none

/-- Four numbers with dots between them, as one address. -/
def address? (cs : List Char) : Option Nat :=
  (Host.dottedPieces? cs).map fun pieces => pieces.foldl (fun n p => n * UInt16.size + p) 0

/-- Reads a socket address. -/
def read? (s : String) : Option Socket :=
  match s.toList with
  | '[' :: rest => do
    let (inside, after) := cutAt ']' rest
    let ':' :: digits ← after | none
    let (address, scope) := cutAt '%' inside
    let pieces ← Host.readIpv6? address
    let scope ← match scope with
      | none => some 0
      | some cs => number? UInt32.size cs
    return { host := .ipv6 pieces, scope, portNumber := ← number? UInt16.size digits }
  | cs => do
    let (address, digits) := cutAt ':' cs
    return { host := .ipv4 (← address? address), portNumber := ← number? UInt16.size (← digits) }

end Socket

end Gateway
