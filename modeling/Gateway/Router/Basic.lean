import Gateway.Config.Error
import Gateway.Endpoint.Serve
import Gateway.Router.Tree

/-!
# Gateway.Router.Basic — endpoints behind their patterns

A router has a route for the pattern of every endpoint, and hands a request to the endpoint of the
route that its path takes. Patterns must begin with a slash and differ in more than the names of
their wildcards; a set of patterns that passes this may still have no routes.
-/

set_option autoImplicit false

namespace Gateway

/-- Why endpoints make no router: a pattern is refused, or one has no route beside the others. -/
inductive RouterError
  | refused (e : ConfigError)
  | unroutable (pattern : String)
  deriving DecidableEq, Repr

/-- Endpoints at the ends of their routes; without endpoints there is no tree. -/
structure Router where
  tree : Option (RouteTree Endpoint)

namespace Router

/-- The shape of a pattern: its segments, with wildcards in place of those that begin with one. -/
def shape (pattern : String) : List (List Char) :=
  (splitAt '/' pattern.toList).map fun segment => match segment with
    | ':' :: _ => [':']
    | '*' :: _ => ['*']
    | segment => segment

/-- Checks patterns one after the other against those before them. -/
def checkPatterns (earlier : List String) : List String → Except ConfigError Unit
  | [] => .ok ()
  | pattern :: rest =>
    if !beginsWith "/" pattern then .error (.invalidPattern pattern .noSlash)
    else match earlier.find? fun e => shape e = shape pattern with
      | some e => .error (.invalidPattern pattern (.conflict e))
      | none => checkPatterns (earlier ++ [pattern]) rest

/-- Adds the route of an endpoint. -/
def mount (r : Router) (e : Endpoint) : Except RouterError Router :=
  let grown := (Route.read? e.pattern).bind fun route => match r.tree with
    | some tree => tree.insert e route
    | none => RouteTree.single e [] route
  match grown with
  | some tree => .ok ⟨some tree⟩
  | none => .error (.unroutable e.pattern)

def build (es : List Endpoint) : Except RouterError Router := do
  (checkPatterns [] (es.map (·.pattern))).mapError RouterError.refused
  es.foldlM mount ⟨none⟩

/-- The endpoint that a path leads to. -/
def endpoint? (r : Router) (path : String) : Option Endpoint :=
  r.tree.bind (·.find? (Utf8.encode path))

/-- The name of the header that tells the length of a body. -/
def contentLength : HeaderName := ⟨"content-length"⟩

/-- The response with the length of its body, unless a length is there already. -/
def measured (r : Response) : Response :=
  if r.headers.contains contentLength then r
  else { r with headers := r.headers.append contentLength (Utf8.encode (toString r.body.length)) }

def leaving : Served Response → Served Response
  | .answered r => .answered (measured r)
  | served => served

/-- Serves a request: what becomes of it, and the calls that were made. A path without an endpoint
is not found. -/
def serve (r : Router) (c : Circumstances) (request : ClientRequest) :
    Served Response × List Call :=
  match r.endpoint? request.path with
  | none => (leaving (.answered { status := 404 }), [])
  | some e => (e.handle c request).map leaving id

end Router

end Gateway
