import Gateway.Router.Route

/-!
# Gateway.Router.Tree — routes that share what they begin with

Routes are kept in a tree: a node holds the bytes that all routes below it have in common, and
parts where they part. `insert` adds a route, unless a path could not choose between it and one
that is there: two wildcards in one place stand for the same unless one of them is for the rest.

A path goes down the tree (`find`). It follows bytes before wildcards, and comes back for a
wildcard it has passed over when it finds nothing below. It does not come back from a place where
no more than a slash at its end is missing or too much: there the path is refused, though another
route might take it. A wildcard takes an empty segment unless that is the end of the path.
-/

set_option autoImplicit false

namespace Gateway

mutual

/-- A node of the tree: the bytes up to it, what belongs to the route that ends there, and how
routes go on, with bytes or with a wildcard. -/
inductive RouteTree (α : Type)
  | node (label : Bytes) (value : Option α) (children : List (RouteTree α))
    (wildcard : RouteWildcard α)

/-- How routes go on with a wildcard: not at all, for a segment, perhaps with more behind it, or for
the rest. -/
inductive RouteWildcard (α : Type)
  | absent
  | segment (value : Option α)
  | segmentThen (value : Option α) (next : RouteTree α)
  | rest (value : α)

end

namespace RouteTree

variable {α : Type}

/-- The byte of a slash. -/
def slash : UInt8 := 0x2F

/-- The bytes up to a node. -/
def label : RouteTree α → Bytes
  | .node label .. => label

/-- What belongs to the route that ends at a node. -/
def value : RouteTree α → Option α
  | .node _ value .. => value

/-! ## Adding a route -/

/-- The tree of a single route behind some bytes. A wildcard for the rest stands after a slash. -/
def single (v : α) (bytes : Bytes) : Route → Option (RouteTree α)
  | [] => some (.node bytes (some v) [] .absent)
  | .byte b :: steps => single v (bytes ++ [b]) steps
  | .segment :: [] => some (.node bytes none [] (.segment (some v)))
  | .segment :: steps =>
    (single v [] steps).map fun next => .node bytes none [] (.segmentThen none next)
  | .rest :: _ =>
    if bytes.getLast?.all (· = slash) then some (.node bytes none [] (.rest v)) else none

/-- The number of bytes that a label and a route have in common. -/
def shared : Bytes → Route → Nat
  | a :: as, .byte b :: steps => if a = b then shared as steps + 1 else 0
  | _, _ => 0

/-- A node that a route goes on from where no route did. -/
def extend (v : α) (bytes : Bytes) (child : RouteTree α) : Route → Option (RouteTree α)
  | [] => some (.node bytes (some v) [child] .absent)
  | .byte b :: steps => (single v [b] steps).map fun next => .node bytes none [child, next] .absent
  | .segment :: [] => some (.node bytes none [child] (.segment (some v)))
  | .segment :: steps =>
    (single v [] steps).map fun next => .node bytes none [child] (.segmentThen none next)
  | .rest :: _ => some (.node bytes none [child] (.rest v))

mutual

/-- Adds a route below a node, unless it collides with one that is there. -/
def insert (v : α) : RouteTree α → Route → Option (RouteTree α)
  | .node bytes value children wildcard, steps =>
    let n := shared bytes steps
    let after := steps.drop n
    if n < bytes.length then
      extend v (bytes.take n) (.node (bytes.drop n) value children wildcard) after
    else match after with
      | [] => if value.isSome then none else some (.node bytes (some v) children wildcard)
      | .byte b :: after =>
        (insertAmong v b children after).map fun children => .node bytes value children wildcard
      | .segment :: after =>
        (insertSegment v wildcard after).map fun wildcard => .node bytes value children wildcard
      | .rest :: _ => match wildcard with
        | .absent => some (.node bytes value children (.rest v))
        | _ => none

/-- Adds a route that goes on with a byte. -/
def insertAmong (v : α) (b : UInt8) : List (RouteTree α) → Route → Option (List (RouteTree α))
  | [], steps => (single v [b] steps).map fun next => [next]
  | child :: children, steps =>
    if child.label.head? = some b then
      (insert v child (.byte b :: steps)).map fun child => child :: children
    else (insertAmong v b children steps).map fun children => child :: children

/-- Adds a route that goes on with a wildcard for a segment, and then as `steps` say. -/
def insertSegment (v : α) : RouteWildcard α → Route → Option (RouteWildcard α)
  | .absent, [] => some (.segment (some v))
  | .absent, steps => (single v [] steps).map (.segmentThen none)
  | .segment value, [] => if value.isSome then none else some (.segment (some v))
  | .segment value, steps => (single v [] steps).map (.segmentThen value)
  | .segmentThen value next, [] =>
    if value.isSome then none else some (.segmentThen (some v) next)
  | .segmentThen value next, steps => (insert v next steps).map (.segmentThen value)
  | .rest _, _ => none

end

/-! ## Following a path -/

/-- What becomes of a path: it arrives, it finds nothing and may try another way, or it is
refused. -/
inductive Arrival (α : Type)
  | found (a : α)
  | lost
  | refused

/-- A path that finds nothing. The path that is only a slash does not try another way. -/
def Arrival.nothing (path : Bytes) : Arrival α := if path = [slash] then .refused else .lost

mutual

/-- Follows a path from a node. -/
def follow : RouteTree α → Bytes → Arrival α
  | .node bytes value children wildcard, path =>
    if bytes.length < path.length then
      if bytes.isPrefixOf path then
        let after := path.drop bytes.length
        match followAmong children value.isSome after with
        | some (.found a) => .found a
        | some .refused => .refused
        | some .lost => followWildcard wildcard after .lost
        | none => followWildcard wildcard after (.nothing after)
      else .nothing path
    else if path = bytes then
      match value with
      | some a => .found a
      | none => .nothing path
    else if bytes = path ++ [slash] ∧ value.isSome then .refused
    else .nothing path

/-- Follows a path that goes on with the first byte of one of some nodes. `atEnd` tells that a route
ends before them. -/
def followAmong : List (RouteTree α) → Bool → Bytes → Option (Arrival α)
  | [], _, _ => none
  | child :: children, atEnd, path =>
    if child.label.head? = path.head? then
      some (if path = [slash] ∧ child.label ≠ [slash] ∧ atEnd then .refused else follow child path)
    else followAmong children atEnd path

/-- Follows a path that goes on with a wildcard; `otherwise` is what becomes of it if there is
none. -/
def followWildcard : RouteWildcard α → Bytes → Arrival α → Arrival α
  | .absent, _, otherwise => otherwise
  | .rest a, _, _ => .found a
  | .segment value, path, _ =>
    match path.dropWhile (· ≠ slash), value with
    | [], some a => .found a
    | [], none => .refused
    | after, _ => .nothing after
  | .segmentThen value next, path, _ =>
    match path.dropWhile (· ≠ slash), value with
    | [], some a => .found a
    | [], none => if next.label = [slash] ∧ next.value.isSome then .refused else .lost
    | after, _ => follow next after

end

/-- What belongs to the route that takes a path. -/
def find? (tree : RouteTree α) (path : Bytes) : Option α :=
  match tree.follow path with
  | .found a => some a
  | _ => none

end RouteTree

end Gateway
