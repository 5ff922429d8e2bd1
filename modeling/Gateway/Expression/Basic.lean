import Gateway.Expression.Template
import Gateway.Json.Value

/-!
# Gateway.Expression.Basic — expressions

The attributes of a configuration are JSON values whose strings may have holes. A string that is
one hole and nothing else is a reference and keeps the type of what it reads; a string with holes
and more is a template and makes a text; arrays and objects are expressions item by item, and
everything else stands for itself.
-/

set_option autoImplicit false

namespace Gateway

/-- An expression over the variables of a request. -/
inductive Expression
  | literal (value : Json)
  | reference (t : Traversal)
  | template (parts : List TemplatePart)
  | list (items : List Expression)
  | object (fields : List (String × Expression))
  deriving Repr, Inhabited

/-- Why a text is no expression: what is wrong, and with which text. -/
structure ExpressionError where
  source : String
  fault : PathFault
  deriving DecidableEq, Repr

def Traversal.ofText (path : String) : Except ExpressionError Traversal :=
  match Traversal.read? path with
  | some t => .ok t
  | none => .error ⟨path, .emptySegment⟩

namespace Expression

def ofText (source : String) : Except ExpressionError Expression :=
  match templateParts source with
  | .error fault => .error ⟨source, fault⟩
  | .ok [] => .ok (.literal (.string source))
  | .ok [.text _] => .ok (.literal (.string source))
  | .ok [.reference t] => .ok (.reference t)
  | .ok parts => .ok (.template parts)

mutual

def ofJson : Json → Except ExpressionError Expression
  | .string s => ofText s
  | .array items => (ofItems items).map .list
  | .object members => (ofMembers members).map .object
  | .null => .ok (.literal .null)
  | .bool b => .ok (.literal (.bool b))
  | .number n => .ok (.literal (.number n))

/-- Reads the items of an array. -/
def ofItems : List Json → Except ExpressionError (List Expression)
  | [] => .ok []
  | item :: rest => do
    let item ← ofJson item
    return item :: (← ofItems rest)

/-- Reads the members of an object; their keys are no expressions. -/
def ofMembers : List (String × Json) → Except ExpressionError (List (String × Expression))
  | [] => .ok []
  | (key, value) :: rest => do
    let value ← ofJson value
    return (key, value) :: (← ofMembers rest)

end

/-- The traversals of a template's parts. -/
def partTraversals (parts : List TemplatePart) : List Traversal :=
  parts.filterMap fun
    | .text _ => none
    | .reference t => some t

mutual

/-- All traversals of an expression, in the order in which they are written. -/
def traversals : Expression → List Traversal
  | .literal _ => []
  | .reference t => [t]
  | .template parts => partTraversals parts
  | .list items => itemTraversals items
  | .object fields => fieldTraversals fields

/-- The traversals of a list's items. -/
def itemTraversals : List Expression → List Traversal
  | [] => []
  | item :: rest => traversals item ++ itemTraversals rest

/-- The traversals of an object's fields. -/
def fieldTraversals : List (String × Expression) → List Traversal
  | [] => []
  | (_, value) :: rest => traversals value ++ fieldTraversals rest

end

end Expression

end Gateway
