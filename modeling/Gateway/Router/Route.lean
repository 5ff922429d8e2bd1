import Gateway.Text.Utf8

/-!
# Gateway.Router.Route — patterns as routes

A pattern is a path in which `:name` stands for a segment from there on and `*name`, at the end,
for any rest. Names only serve the reader: a route keeps no more than where its wildcards stand.
-/

set_option autoImplicit false

namespace Gateway

/-- A step of a route: a byte, or a wildcard for the rest of a segment or of the path. -/
inductive RouteStep
  | byte (b : UInt8)
  | segment
  | rest
  deriving DecidableEq, Repr

/-- A pattern without the names of its wildcards. -/
abbrev Route := List RouteStep

namespace Route

/-- A character that stands for itself in the name of a wildcard. -/
def isNameChar (c : Char) : Bool := c != '/' && c != ':' && c != '*'

/-- Whether the name of a wildcard goes up to the end of its segment. -/
def endsSegment : List Char → Bool
  | [] => true
  | c :: _ => c == '/'

/-- Reads the steps of a pattern. A wildcard needs a name, goes up to the end of its segment, and
one for the rest ends the pattern. -/
def readSteps? (cs : List Char) : Option Route :=
  match cs with
  | [] => some []
  | c :: cs =>
    if c = ':' ∨ c = '*' then
      let after := cs.dropWhile isNameChar
      if (cs.takeWhile isNameChar).isEmpty || !endsSegment after then none
      else if c = ':' then (readSteps? after).map (.segment :: ·)
      else if after.isEmpty then some [.rest] else none
    else (readSteps? cs).map ((String.utf8EncodeChar c).map .byte ++ ·)
termination_by cs.length
decreasing_by
  · have := (List.dropWhile_sublist isNameChar (l := cs)).length_le
    simp only [List.length_cons]
    omega
  · simp

/-- The most wildcards for segments that a route may have. -/
def segmentLimit : Nat := 25

def read? (pattern : String) : Option Route :=
  (readSteps? pattern.toList).filter fun r => (r.filter (· = .segment)).length ≤ segmentLimit

end Route

end Gateway
