import Gateway.Domain.Folding
import Gateway.Domain.Punycode
import Gateway.Unicode.Direction
import Gateway.Unicode.Joining

/-!
# Gateway.Domain.Name — domain names in ASCII

A domain name has parts with dots between them. `ascii?` folds a name, checks its parts and writes
those that hold more than ASCII in ASCII, behind `xn--`. A part that is written so already must be
what writing gives: the part that it stands for is folded and passes the same checks.
-/

set_option autoImplicit false

namespace Gateway

namespace Domain

/-- What a part begins with that is written in ASCII but stands for more. -/
def asciiMark : List Char := "xn--".toList

/-- The longest part that is read from ASCII, in characters behind the mark. -/
def readLimit : Nat := 2000

/-- The longest part that is written in ASCII, in characters. -/
def writeLimit : Nat := 1000

/-- A part of a name: the text it stands for, and the text it is written as. -/
structure Part where
  text : List Char
  written : List Char
  deriving DecidableEq, Repr

/-- Whether a part holds ASCII only. -/
def isAscii (cs : List Char) : Bool := cs.all (·.toNat < 0x80)

/-- The part that a folded text spells. -/
def part? (cs : List Char) : Option Part :=
  if asciiMark.isPrefixOf cs then
    let inside := cs.drop asciiMark.length
    if !isAscii cs || inside.getLast?.all (· = '-') || readLimit < inside.length then none
    else match Punycode.decode? inside with
      | some text => if isFolded text then some ⟨text, cs⟩ else none
      | none => none
  else if isAscii cs then some ⟨cs, cs⟩
  else if writeLimit < cs.length then none
  else some ⟨cs, asciiMark ++ Punycode.encode cs⟩

/-- Whether a part may stand in a name: it does not begin with a mark, and joiners stand where
they do something. -/
def isPlaced (p : Part) : Bool := !p.text.head?.any Unicode.isMark && Unicode.joinersPlaced p.text

/-- The parts of a name. If anything in the name runs from right to left, each part must be readable
in one order only. -/
def parts? (name : List Char) : Option (List Part) := do
  let parts ← (splitAt '.' (← fold? name)).mapM part?
  if !parts.all isPlaced then none
  else if parts.any (Direction.turns ·.text) && !parts.all (Direction.isUnmixed ·.text) then none
  else some parts

def ascii? (name : List Char) : Option (List Char) :=
  (parts? name).map fun parts => ['.'].intercalate (parts.map (·.written))

end Domain

end Gateway
