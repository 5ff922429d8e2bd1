import Gateway.Endpoint.Basic
import Gateway.Evaluation.Variables

/-!
# Gateway.Endpoint.Inbound — what an endpoint does to requests

The path, the header fields, the query and the form of a request are edited in this order. All
expressions see the request as the client sent it.
-/

set_option autoImplicit false

namespace Gateway

/-- Turns a fault into the error of an endpoint. -/
def orReject {α : Type} (x : Except Fault α) : Except EndpointError α :=
  x.mapError fun f => .evaluation f.message

/-- The request with another path and query. The text must be one. -/
def ClientRequest.withTarget (r : ClientRequest) (url : String) :
    Except EndpointError ClientRequest :=
  if url = r.pathAndQuery then .ok r
  else match PathAndQuery.read url >>= r.uri.withTarget with
    | .ok uri => .ok { r with uri }
    | .error e => .error (.evaluation ("request url " ++ quote url ++ ": " ++ e.message))

namespace RequestModifiers

def editPath (m : RequestModifiers) (c : Context) (url : String) :
    Except EndpointError String := do
  match ← orReject (c.attribute? "path" m.path) with
  | none => return url
  | some value => match value.requestPath with
    | .error e => throw (.configuration ("path: " ++ e.message))
    | .ok none => return url
    | .ok (some path) => return replacePath url path

/-- The request that the producers see. -/
def apply (m : RequestModifiers) (r : ClientRequest) : Except EndpointError ClientRequest := do
  if m.isEmpty then return r
  let c := Context.build r (.ofNames []) none
  let url ← m.editPath c r.pathAndQuery
  let edit ← orReject (m.headers.evaluate c "request_headers")
  let headers ← orReject (blame "request headers" (edit.headers r.headers))
  let edit ← orReject (m.query.evaluate c "query_params")
  let url ← orReject (blame "query params" (edit.onUrl url))
  let r ← ({ r with headers } : ClientRequest).withTarget url
  let edit ← orReject (m.form.evaluate c "form_params")
  if edit.isEmpty || !carriesForm r.method r.headers then return r
  let form ← orReject (blame "form params" (edit.onForm r.body))
  return { r with body := Utf8.encode form }

end RequestModifiers

end Gateway
