/-!
# Gateway.Json.Value — JSON values

Expressions evaluate to these values. An object lists its members in ascending order of their
keys, each key once; `Members.set` keeps that. A number that is written without fraction and
exponent and fits 64 bits is an integer, every other one is a double.
-/

set_option autoImplicit false

namespace Gateway

/-- A number: an integer between `-2 ^ 63` and `2 ^ 64 - 1`, or a finite double by its bits. -/
inductive Number
  | int (n : Int)
  | float (bits : UInt64)
  deriving Repr, DecidableEq

/-- The natural number that a number is, if it is an integer. -/
def Number.toNat? : Number → Option Nat
  | .int n => if 0 ≤ n then some n.toNat else none
  | .float _ => none

inductive Json
  | null
  | bool (b : Bool)
  | number (n : Number)
  | string (s : String)
  | array (items : List Json)
  | object (members : List (String × Json))
  deriving Repr, Inhabited

namespace Json

/-- The members of an object, in ascending order of their keys. -/
abbrev Members := List (String × Json)

/-- The integer `n` as a value. -/
def ofNat (n : Nat) : Json := .number (.int n)

namespace Members

/-- The value under a key. -/
def get? (members : Members) (key : String) : Option Json := members.lookup key

/-- Puts a value under a key, in the key's place; a value already there is replaced. -/
def set : Members → String → Json → Members
  | [], key, value => [(key, value)]
  | (k, v) :: rest, key, value =>
    if key < k then (key, value) :: (k, v) :: rest
    else if key = k then (key, value) :: rest
    else (k, v) :: set rest key value

/-- The members of a list in which a later member replaces an earlier one of the same key. -/
def ofList (fields : List (String × Json)) : Members :=
  fields.foldl (fun members (key, value) => members.set key value) []

end Members

def ofFields (fields : List (String × Json)) : Json := .object (Members.ofList fields)

end Json

end Gateway
