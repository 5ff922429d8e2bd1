import Gateway.Config.Declaration
import Gateway.Config.Limit

/-!
# Gateway.Config.Build — from declarations to endpoints

Backends come first, in the order of their names, then the endpoints one after the other; the
first fault decides. Within an endpoint the proxies stand before the requests.
-/

set_option autoImplicit false

namespace Gateway

/-- Makes a backend of its declaration. -/
def BackendDecl.backend (d : BackendDecl) (label : BackendLabel) : Except BackendFault Backend := do
  let url ← (Url.read d.origin).mapError (BackendFault.origin d.origin)
  if !url.isHttp then throw (.scheme url.scheme)
  let headers ← d.headers.foldlM (fun headers (name, value) => do
    let some headerName := HeaderName.ofText? name | throw (BackendFault.headerName name)
    let some value := headerValue? value | throw (BackendFault.headerValue name)
    return headers.insert headerName value) Headers.empty
  let basePath := trimBoth (· == '/') d.basePath
  return {
    label
    origin := trimRight (· == '/') d.origin
    basePath := if basePath.isEmpty then "" else "/" ++ basePath
    timeout := d.timeout
    headers }

/-- Makes a backend of its declaration, or refuses the configuration. -/
def BackendDecl.build (d : BackendDecl) (label : BackendLabel) : Except ConfigError Backend :=
  (d.backend label).mapError (ConfigError.invalidBackend label.text)

namespace Values

/-- An attribute as an expression. -/
def expression? (values : Values) (name : String) : Except ConfigError (Option Expression) :=
  match values.lookup name with
  | none => .ok none
  | some value => ((Expression.ofJson value).map some).mapError ConfigError.expression

/-- The three attributes of a rule as expressions. -/
def rule (values : Values) (subject : String) : Except ConfigError Rule := do
  return {
    set := ← expression? values ("set_" ++ subject)
    add := ← expression? values ("add_" ++ subject)
    remove := ← expression? values ("remove_" ++ subject) }

/-- The attributes of a producer. -/
def attributes (values : Values) : Except ConfigError Attributes := do
  return {
    method := ← expression? values "method"
    url := ← expression? values "url"
    path := ← expression? values "path"
    body := ← expression? values "body"
    jsonBody := ← expression? values "json_body"
    formBody := ← expression? values "form_body"
    headers := ← expression? values "headers"
    requestHeaders := ← rule values "request_headers"
    queryParams := ← rule values "query_params"
    formParams := ← rule values "form_params"
    expectedStatus := ← expression? values "expected_status"
    responseHeaders := ← rule values "response_headers" }

/-- What an endpoint does to requests. -/
def requestModifiers (values : Values) : Except ConfigError RequestModifiers := do
  return {
    path := ← expression? values "path"
    headers := ← rule values "request_headers"
    query := ← rule values "query_params"
    form := ← rule values "form_params" }

/-- What an endpoint does to responses. -/
def responseModifiers (values : Values) : Except ConfigError ResponseModifiers := do
  return {
    headers := ← rule values "response_headers"
    status := ← expression? values "set_response_status" }

def template (values : Values) : Except ConfigError ResponseTemplate := do
  return {
    status := ← expression? values "status"
    headers := ← expression? values "headers"
    body := ← expression? values "body"
    jsonBody := ← expression? values "json_body" }

end Values

/-- The status of a redirect, or a refusal. -/
def redirectStatus (declared : Option Nat) : Except ConfigError Nat :=
  (Redirect.status? declared).mapError ConfigError.invalidRedirectStatus

/-- Makes a redirect of its declaration. -/
def RedirectDecl.build (d : RedirectDecl) : Except ConfigError Redirect := do
  let url ← (Expression.ofJson d.url).mapError ConfigError.expression
  return ⟨url, ← redirectStatus d.status⟩

namespace ProducerDecl

/-- The name of a producer in messages. -/
def shownName (d : ProducerDecl) : String := if d.name.isEmpty then "default" else d.name

def findBackend (d : ProducerDecl) (pattern : String) (backends : List (String × Backend)) :
    Except ConfigError Backend :=
  match d.backend with
  | .named name => match backends.lookup name with
    | some backend => .ok backend
    | none => .error (.unknownBackend name)
  | .inPlace decl => decl.build (.inPlace pattern d.shownName)

/-- Makes a producer of its declaration. Its id comes with its place in the graph. -/
def build (d : ProducerDecl) (kind : ProducerKind) (pattern : String)
    (backends : List (String × Backend)) : Except ConfigError Producer := do
  let backend ← d.findBackend pattern backends
  if kind = .request && (d.values.lookup "path").isSome then throw (.proxyOnlyPath d.shownName)
  return { id := 0, name := Producer.normalName d.name, kind, backend,
           attributes := ← d.values.attributes }

end ProducerDecl

namespace Endpoint

/-- Refuses an endpoint that has no answer. -/
def check (e : Endpoint) : Except ConfigError Endpoint :=
  match e.refusal? with
  | none => .ok e
  | some .empty => .error (.emptyEndpoint e.pattern)
  | some (.ambiguous results) => .error (.ambiguousResponse e.pattern results)

end Endpoint

/-- Makes an endpoint of its declaration. -/
def EndpointDecl.build (d : EndpointDecl) (backends : List (String × Backend)) :
    Except ConfigError Endpoint := do
  let proxies ← d.proxies.mapM fun p => p.build .proxy d.pattern backends
  let requests ← d.requests.mapM fun p => p.build .request d.pattern backends
  let graph ← (Graph.build (proxies ++ requests)).mapError ConfigError.graph
  let bodyLimit ← BodyLimit.ofDeclared d.bodyLimit
  let requestModifiers ← d.values.requestModifiers
  let responseModifiers ← d.values.responseModifiers
  let template ← d.response.mapM Values.template
  let redirect ← d.redirect.mapM RedirectDecl.build
  Endpoint.check { pattern := d.pattern, graph, template, redirect, requestModifiers,
                   responseModifiers, bodyLimit }

namespace Config

/-- Makes the endpoints of a configuration. -/
def build (c : Config) : Except ConfigError (List Endpoint) := do
  let backends ← c.backends.mapM fun (name, decl) => do
    return (name, ← decl.build (.named name))
  c.endpoints.mapM (·.build backends)

/-- Reads a configuration from a text. -/
def ofText (s : String) : Except ConfigError Config :=
  match (Document.read? s).bind Config.read? with
  | some c => .ok c
  | none => .error .unparsable

/-- Reads a configuration from the bytes of a file, which must be text. -/
def ofBytes (bs : Bytes) : Except ConfigError Config :=
  match Utf8.decode? bs with
  | some s => ofText s
  | none => .error .unreadable

end Config

end Gateway
