import Gateway.Evaluation.Context
import Gateway.Evaluation.Edit

/-!
# Gateway.Evaluation.Rule — attributes as expressions

A configuration gives edits as expressions: a `Rule` evaluates to an `Edit`. When an attribute
cannot be evaluated or its value cannot be used, the `Fault` says which attribute it is.
-/

set_option autoImplicit false

namespace Gateway

/-- A failure, and the attribute it concerns. -/
structure Fault where
  subject : String
  error : EvalError
  deriving Repr

def Fault.message (f : Fault) : String := f.subject ++ ": " ++ f.error.message

/-- Lays a failure to an attribute. -/
def blame {α : Type} (subject : String) (x : Except EvalError α) : Except Fault α :=
  x.mapError (Fault.mk subject)

/-- The value of an attribute, if the attribute is given. -/
def Context.attribute? (c : Context) (subject : String) (e : Option Expression) :
    Except Fault (Option Json) :=
  blame subject (c.evaluate? e)

/-- What to set, to add and to remove, as expressions. -/
structure Rule where
  set : Option Expression := none
  add : Option Expression := none
  remove : Option Expression := none

namespace Rule

/-- The attributes of a rule with their names, in the order in which they are declared. -/
def fields (subject : String) (r : Rule) : List (String × Option Expression) :=
  [("set_" ++ subject, r.set), ("add_" ++ subject, r.add), ("remove_" ++ subject, r.remove)]

/-- Whether nothing is given. -/
def isEmpty (r : Rule) : Bool := r.set.isNone && r.add.isNone && r.remove.isNone

def evaluate (c : Context) (subject : String) (r : Rule) : Except Fault Edit := do
  let remove ← c.attribute? ("remove_" ++ subject) r.remove
  let set ← c.attribute? ("set_" ++ subject) r.set
  let add ← c.attribute? ("add_" ++ subject) r.add
  return { remove, set, add }

end Rule

end Gateway
