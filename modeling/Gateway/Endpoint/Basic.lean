import Gateway.Endpoint.Error
import Gateway.Evaluation.Rule
import Gateway.Graph.Basic

/-!
# Gateway.Endpoint.Basic — endpoints

An endpoint answers the requests for a pattern. Its graph of producers is run for each of them;
the answer is made from a template, is a redirect, or is that of the one producer on which no
other depends. The request is edited before the run and the response after it.
-/

set_option autoImplicit false

namespace Gateway

/-- What is done to a request before any producer sees it. -/
structure RequestModifiers where
  path : Option Expression := none
  headers : Rule := {}
  query : Rule := {}
  form : Rule := {}

/-- Whether nothing is done. -/
def RequestModifiers.isEmpty (m : RequestModifiers) : Bool :=
  m.path.isNone && m.headers.isEmpty && m.query.isEmpty && m.form.isEmpty

/-- What is done to a response before it is sent. -/
structure ResponseModifiers where
  headers : Rule := {}
  status : Option Expression := none

/-- Whether nothing is done. -/
def ResponseModifiers.isEmpty (m : ResponseModifiers) : Bool := m.headers.isEmpty && m.status.isNone

/-- A response made from expressions. -/
structure ResponseTemplate where
  status : Option Expression := none
  headers : Option Expression := none
  body : Option Expression := none
  jsonBody : Option Expression := none

/-- A redirect: where to, and with which status. -/
structure Redirect where
  url : Expression
  status : Nat

/-- The status of a redirect that is given none. -/
def Redirect.defaultStatus : Nat := 301

def Redirect.isStatus (n : Nat) : Bool := 300 ≤ n && n < 400

/-- The status of a redirect, or the one that is refused. -/
def Redirect.status? (declared : Option Nat) : Except Nat Nat :=
  let n := declared.getD defaultStatus
  if isStatus n then .ok n else .error n

/-- The longest body that an endpoint takes unless it says otherwise, in bytes. -/
def defaultBodyLimit : Nat := 64 * 1024 * 1024

structure Endpoint where
  pattern : String
  graph : Graph
  template : Option ResponseTemplate := none
  redirect : Option Redirect := none
  requestModifiers : RequestModifiers := {}
  responseModifiers : ResponseModifiers := {}
  bodyLimit : Nat := defaultBodyLimit

/-- Why an endpoint can have no answer: nothing makes one, or more than one result would be it. -/
inductive EndpointRefusal
  | empty
  | ambiguous (results : Nat)
  deriving DecidableEq, Repr

namespace Endpoint

/-- Whether an endpoint has no answer. -/
def refusal? (e : Endpoint) : Option EndpointRefusal :=
  if e.template.isSome || e.redirect.isSome then none
  else if e.graph.isEmpty then some .empty
  else if 1 < e.graph.size then some (.ambiguous e.graph.size)
  else none

/-- An endpoint on one line. -/
def display (e : Endpoint) : String :=
  "EndpointDriver \x7b pattern: " ++ quote e.pattern ++ ", tree: " ++ quote e.graph.plan.describe
    ++ ", .. \x7d"

end Endpoint

end Gateway
