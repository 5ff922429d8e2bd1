import Gateway.Backend.Basic
import Gateway.Evaluation.Rule

/-!
# Gateway.Producer.Basic — producers

A producer is one declared call of a backend. Its attributes are expressions: those of the
*request side* are evaluated before the call, those of the *response side* after it. Through
them a producer refers to others.
-/

set_option autoImplicit false

namespace Gateway

/-- Whether a producer makes its request from attributes alone, or from the client's request. -/
inductive ProducerKind
  | request
  | proxy
  deriving DecidableEq, Repr

def ProducerKind.text : ProducerKind → String
  | .request => "request"
  | .proxy => "proxy"

structure Attributes where
  method : Option Expression := none
  url : Option Expression := none
  path : Option Expression := none
  body : Option Expression := none
  jsonBody : Option Expression := none
  formBody : Option Expression := none
  headers : Option Expression := none
  requestHeaders : Rule := {}
  queryParams : Rule := {}
  formParams : Rule := {}
  expectedStatus : Option Expression := none
  responseHeaders : Rule := {}

/-- The attributes that are given, of a list of attributes with their names. -/
def givenFields (fields : List (String × Option Expression)) : List (String × Expression) :=
  fields.filterMap fun (name, e) => e.map (name, ·)

namespace Attributes

/-- The given attributes that count before the call. -/
def requestSide (a : Attributes) : List (String × Expression) :=
  givenFields ([("method", a.method), ("url", a.url), ("path", a.path), ("body", a.body),
      ("json_body", a.jsonBody), ("form_body", a.formBody), ("headers", a.headers)]
    ++ a.requestHeaders.fields "request_headers" ++ a.queryParams.fields "query_params"
    ++ a.formParams.fields "form_params" ++ [("expected_status", a.expectedStatus)])

/-- The given attributes that count after the call. -/
def responseSide (a : Attributes) : List (String × Expression) :=
  givenFields (a.responseHeaders.fields "response_headers")

end Attributes

/-- A producer. The id is its place among the producers of an endpoint. -/
structure Producer where
  id : Nat
  name : String
  kind : ProducerKind
  backend : Backend
  attributes : Attributes

/-- The producer names that attributes refer to, each once. -/
def references (fields : List (String × Expression)) : List String :=
  ((fields.flatMap fun (_, e) => e.traversals).filterMap Traversal.producer?).eraseDups

namespace Producer

/-- The name that a declared name stands for: white space around it does not count, and no name
is a name too. -/
def normalName (declared : String) : String :=
  let trimmed := trimBlank declared
  if trimmed.isEmpty then "default" else trimmed

/-- The producers that the request side refers to. -/
def requestReferences (p : Producer) : List String := references p.attributes.requestSide

/-- The other producers that the response side refers to. -/
def responseReferences (p : Producer) : List String :=
  (references p.attributes.responseSide).filter (· ≠ p.name)

end Producer

end Gateway
