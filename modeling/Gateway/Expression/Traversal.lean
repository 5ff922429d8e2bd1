import Gateway.Text.Cut

/-!
# Gateway.Expression.Traversal — paths into variables

A traversal names a variable and the keys to follow below it, `request.headers.host`. Some
variables hold what the producers of an endpoint have done: a traversal that starts there and
goes on names a producer, and that is how one producer comes to depend on another.
-/

set_option autoImplicit false

namespace Gateway

/-- The variables that every expression of an endpoint sees. -/
inductive Variable
  | request
  | backendResponses
  | backendRequests
  | backendResponse
  | backendRequest
  deriving DecidableEq, Repr

def Variable.name : Variable → String
  | .request => "request"
  | .backendResponses => "backend_responses"
  | .backendRequests => "backend_requests"
  | .backendResponse => "backend_response"
  | .backendRequest => "backend_request"

/-- A path into the variables: the name of one, and the keys to follow from there. -/
structure Traversal where
  root : String
  keys : List String
  deriving DecidableEq, Repr

namespace Traversal

def segments (t : Traversal) : List String := t.root :: t.keys

/-- The written form: the segments with dots between them. -/
def text (t : Traversal) : String := ".".intercalate t.segments

/-- Reads a path. No segment may be empty. -/
def read? (path : String) : Option Traversal :=
  match splitText '.' path with
  | root :: keys => if (root :: keys).any (·.isEmpty) then none else some ⟨root, keys⟩
  | [] => none

/-- The producer whose request or response the traversal reads. -/
def producer? (t : Traversal) : Option String :=
  if t.root = Variable.backendResponses.name ∨ t.root = Variable.backendRequests.name then
    t.keys.head?
  else none

/-- Whether the traversal reads the request or response of the producer at hand. -/
def isAlias (t : Traversal) : Bool :=
  t.root == Variable.backendResponse.name || t.root == Variable.backendRequest.name

end Traversal

end Gateway
