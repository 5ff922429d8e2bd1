import Gateway.Json.Writer
import Gateway.Text.Quoted

/-!
# Gateway.Evaluation.Error — why an evaluation fails

Evaluating an expression fails on an unknown variable only. Using its value may fail too: on a
value of another type, on a header that is none, on a path with a query.
-/

set_option autoImplicit false

namespace Gateway

/-- What a value was expected to be. -/
inductive Expected
  | statuses
  | object
  | names
  deriving DecidableEq, Repr

/-- An expected type, as messages name it. -/
def Expected.text : Expected → String
  | .statuses => "status code or list of status codes"
  | .object => "object"
  | .names => "list of names"

/-- Why an evaluation fails. -/
inductive EvalError
  | unknownVariable (name : String)
  | type (expected : Expected) (found : Json)
  | invalidHeader (text : String)
  | invalidPath (path : String)
  deriving Repr

/-- The wording of a failure. -/
def EvalError.message : EvalError → String
  | .unknownVariable name => "unknown variable " ++ quote name
  | .type expected found => "expected " ++ expected.text ++ ", found " ++ found.compact
  | .invalidHeader text => "invalid header " ++ quote text
  | .invalidPath path => "invalid path " ++ quote path ++ ": query and fragment are not allowed"

end Gateway
