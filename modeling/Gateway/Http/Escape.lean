import Gateway.Form

/-!
# Gateway.Http.Escape — what the parts of a url hold

Each part of a url percent-encodes the bytes that would end it or get lost on the way: controls and
what is beyond ASCII in every part, further characters depending on the part.
-/

set_option autoImplicit false

namespace Gateway

/-- The text with the bytes of a class percent-encoded. -/
def percentEncode (p : UInt8 → Bool) (s : String) : String :=
  Utf8.decodeLossy ((Utf8.encode s).flatMap fun b =>
    if p b then [0x25, Form.hexByte (b.toNat / 16), Form.hexByte (b.toNat % 16)] else [b])

namespace Escape

/-- A byte that is percent-encoded wherever it stands. -/
def anywhere (b : UInt8) : Bool := b < 0x20 || 0x7E < b

/-- Whether a byte is one of these ASCII characters. -/
def isOneOf (chars : String) (b : UInt8) : Bool := (Utf8.encode chars).contains b

/-- A byte that a fragment does not hold. -/
def inFragment (b : UInt8) : Bool := anywhere b || isOneOf " \"<>`" b

/-- A byte that a query does not hold; `web` for the urls of the web and of files. -/
def inQuery (web : Bool) (b : UInt8) : Bool :=
  anywhere b || isOneOf " \"#<>" b || (web && b == 0x27)

/-- A byte that a path does not hold. -/
def inPath (b : UInt8) : Bool := inFragment b || isOneOf "#?\x7b\x7d" b

/-- A byte that the name and the password of a user do not hold. -/
def inUser (b : UInt8) : Bool := inPath b || isOneOf "/:;=@[\\]^|" b

end Escape

end Gateway
