import Gateway.Evaluation.Reading
import Gateway.Expression.Basic

/-!
# Gateway.Evaluation.Context — values of expressions

A context gives the variables their values. A traversal fails only if its root is no variable of
the context: below it a missing key, an index out of range or a key of a scalar reads as null.
-/

set_option autoImplicit false

namespace Gateway

/-- The values of the variables. -/
structure Context where
  bindings : Json.Members := []

namespace Context

/-- Gives a variable a value; an earlier value is replaced. -/
def set (c : Context) (name : String) (value : Json) : Context :=
  ⟨c.bindings.set name value⟩

/-- The item of a value under a key: a member of an object, or an item of an array by its
index. -/
def child? (key : String) : Json → Option Json
  | .object members => Json.Members.get? members key
  | .array items => (readNat? UInt64.size key).bind (items[·]?)
  | _ => none

/-- The value at the end of a path of keys; null where the path breaks off. -/
def follow : Json → List String → Json
  | value, [] => value
  | value, key :: keys =>
    match child? key value with
    | some value => follow value keys
    | none => .null

def lookup (c : Context) (t : Traversal) : Except EvalError Json :=
  match Json.Members.get? c.bindings t.root with
  | some value => .ok (follow value t.keys)
  | none => .error (.unknownVariable t.root)

/-- The text of a template's part. -/
def partText (c : Context) : TemplatePart → Except EvalError String
  | .text s => .ok s
  | .reference t => (c.lookup t).map Json.text

mutual

def evaluate (c : Context) : Expression → Except EvalError Json
  | .literal value => .ok value
  | .reference t => c.lookup t
  | .template parts => (parts.mapM c.partText).map fun texts => .string (String.join texts)
  | .list items => (evaluateItems c items).map .array
  | .object fields => (evaluateFields c fields).map Json.ofFields

/-- The values of a list's items. -/
def evaluateItems (c : Context) : List Expression → Except EvalError (List Json)
  | [] => .ok []
  | item :: rest => do
    let value ← evaluate c item
    return value :: (← evaluateItems c rest)

/-- The values of an object's fields. -/
def evaluateFields (c : Context) :
    List (String × Expression) → Except EvalError (List (String × Json))
  | [] => .ok []
  | (key, item) :: rest => do
    let value ← evaluate c item
    return (key, value) :: (← evaluateFields c rest)

end

/-- The value of an expression that may be missing. -/
def evaluate? (c : Context) : Option Expression → Except EvalError (Option Json)
  | none => .ok none
  | some e => (c.evaluate e).map some

end Context

end Gateway
