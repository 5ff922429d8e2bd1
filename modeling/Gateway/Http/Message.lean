import Gateway.Form
import Gateway.Http.Header
import Gateway.Http.Uri
import Gateway.Json.Document

/-!
# Gateway.Http.Message — requests and responses

A client sends a `ClientRequest`, a backend gets a `BackendRequest`, and both answer with a
`Response`. The url of a backend request is absolute or relative to the backend's origin, so its
path and query are found by `splitUrl`, which skips an origin.
-/

set_option autoImplicit false

namespace Gateway

/-- A request method. Methods are compared with regard to case. -/
abbrev Method := String

/-- The method a text spells, if it is a token. -/
def method? (s : String) : Option Method :=
  if s.toList.all isTokenChar && !s.isEmpty then some s else none

/-- A status that a message may carry. -/
def isStatus (n : Nat) : Bool := 100 ≤ n && n < 1000

/-- The body of a message as JSON, when it is JSON. -/
def jsonBody (body : Bytes) : Option Json :=
  if body.isEmpty then none else Json.readBytes? body

/-- A response, of a backend or to a client. -/
structure Response where
  status : Nat
  headers : Headers := .empty
  body : Bytes := []
  deriving DecidableEq, Repr

/-- The media type of a response, when it is plain text. -/
def Response.contentType? (r : Response) : Option String :=
  (r.headers.get? contentType).bind headerText?

/-- A request of a client. Every request has an id of its own. -/
structure ClientRequest where
  id : String
  method : Method
  uri : Uri
  headers : Headers
  body : Bytes
  deriving DecidableEq, Repr

namespace ClientRequest

/-- Adds a header field; a name or value that is invalid is passed over. -/
def withHeader (r : ClientRequest) (name value : String) : ClientRequest :=
  match HeaderName.ofText? name, headerValue? value with
  | some name, some value => { r with headers := r.headers.append name value }
  | _, _ => r

def path (r : ClientRequest) : String := r.uri.path

/-- The query of the request, without its question mark. -/
def query (r : ClientRequest) : Option String := r.uri.query

def pathAndQuery (r : ClientRequest) : String := r.uri.pathAndQuery

end ClientRequest

/-- Splits a url into its path and its query. An origin in front is skipped, a fragment is
dropped, and an empty path reads as `/`. -/
def splitUrl (url : String) : String × Option String :=
  let rest := match afterFirst "://".toList url.toList with
    | some after => after.dropWhile fun c => c ≠ '/' && c ≠ '?'
    | none => url.toList
  let (path, query) := cutAt '?' (cutAt '#' rest).1
  (if path.isEmpty then "/" else String.ofList path, query.map String.ofList)

/-- A request to a backend. Its url is absolute, or a path with an optional query that the
backend joins onto its origin. -/
structure BackendRequest where
  method : Method
  url : String
  headers : Headers := .empty
  body : Bytes := []
  deriving DecidableEq, Repr

def BackendRequest.path (r : BackendRequest) : String := (splitUrl r.url).1

/-- The query of the url, without its question mark. -/
def BackendRequest.query (r : BackendRequest) : Option String := (splitUrl r.url).2

end Gateway
