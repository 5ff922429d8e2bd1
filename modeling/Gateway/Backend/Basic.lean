import Gateway.Http.Message

/-!
# Gateway.Backend.Basic — where producers send their requests

A backend is an origin with a base path, a timeout and header fields of its own. Requests name
their target by a url; `resolve` makes it absolute.
-/

set_option autoImplicit false

namespace Gateway

/-- How a backend came into a configuration: under a name, or in place at a producer of an
endpoint. -/
inductive BackendLabel
  | named (name : String)
  | inPlace (pattern producer : String)
  deriving DecidableEq, Repr

/-- The name of the backend in messages. -/
def BackendLabel.text : BackendLabel → String
  | .named name => name
  | .inPlace pattern producer => pattern ++ " " ++ producer

/-- A backend. Origin and base path do not end with a slash, and the base path is empty or begins
with one; the timeout is in milliseconds. -/
structure Backend where
  label : BackendLabel
  origin : String
  basePath : String := ""
  timeout : Nat := 60000
  headers : Headers := .empty
  deriving DecidableEq, Repr

namespace Backend

/-- The name of the backend in messages. -/
def name (b : Backend) : String := b.label.text

/-- The absolute url of a request: what looks absolute is kept, all else is put behind origin and
base path. -/
def resolve (b : Backend) (url : String) : String :=
  if hasText "://" url then url
  else b.origin ++ b.basePath
    ++ (if url.isEmpty || beginsWith "/" url || beginsWith "?" url then url else "/" ++ url)

/-- The header fields of a request with the backend's own where the request has none. -/
def withDefaults (b : Backend) (h : Headers) : Headers :=
  ⟨h.fields ++ b.headers.fields.filter fun (name, _) => !h.contains name⟩

end Backend

end Gateway
