import Gateway.Evaluation.Variables
import Gateway.Producer.Basic

/-!
# Gateway.Producer.Outbound — from attributes to a request and back

What a producer sends, and what it makes of the answer. A request producer starts from nothing, a
proxy from the client's request without the header fields of that connection; attributes then
replace and edit parts. The answer is edited too, and its status compared with the expected ones.
-/

set_option autoImplicit false

namespace Gateway

def Failure.ofFault (f : Fault) : Failure := .evaluation f.subject f.error.message

/-- Turns a fault into a failure. -/
def orFail {α : Type} (x : Except Fault α) : Except Failure α := x.mapError Failure.ofFault

namespace Attributes

/-- The method: a name in any case; nothing when it is empty. -/
def evalMethod (a : Attributes) (c : Context) : Except Failure (Option Method) := do
  match ← orFail (c.attribute? "method" a.method) with
  | none => return none
  | some value =>
    let name := upperAscii (trimBlank value.text)
    if name.isEmpty then return none
    match method? name with
    | some method => return some method
    | none => throw (.request ("invalid method " ++ quote name))

/-- The url; nothing when it is empty. -/
def evalUrl (a : Attributes) (c : Context) : Except Failure (Option String) := do
  let value ← orFail (c.attribute? "url" a.url)
  return (value.map Json.text).filter (!·.isEmpty)

/-- The path that replaces that of the url. -/
def evalPath (a : Attributes) (c : Context) : Except Failure (Option String) := do
  match ← orFail (c.attribute? "path" a.path) with
  | none => return none
  | some value => orFail (blame "path" value.requestPath)

/-- The body and its media type: JSON before a form, a form before plain text. -/
def evalBody (a : Attributes) (c : Context) : Except Failure (Option (Bytes × String)) := do
  if let some value ← orFail (c.attribute? "json_body" a.jsonBody) then
    return some (Utf8.encode value.compact, "application/json")
  if let some value ← orFail (c.attribute? "form_body" a.formBody) then
    return some (Utf8.encode (← orFail (blame "form_body" value.formEncode)), formType)
  if let some value ← orFail (c.attribute? "body" a.body) then
    return some (Utf8.encode value.text, "text/plain")
  return none

/-- The statuses that count as success; none means all. -/
def evalExpected (a : Attributes) (c : Context) : Except Failure (List Nat) := do
  match ← orFail (c.attribute? "expected_status" a.expectedStatus) with
  | none => return []
  | some value => orFail (blame "expected_status" value.statusList)

/-- Edits header fields, query and form of a request. Form parameters are edited only where there
is a form. -/
def editRequest (a : Attributes) (c : Context) (r : BackendRequest) :
    Except Failure BackendRequest := do
  let set ← orFail (c.attribute? "headers" a.headers)
  let headers ← orFail (blame "headers" (({ set } : Edit).headers r.headers))
  let edit ← orFail (a.requestHeaders.evaluate c "request_headers")
  let headers ← orFail (blame "request headers" (edit.headers headers))
  let edit ← orFail (a.queryParams.evaluate c "query_params")
  let url ← orFail (blame "query params" (edit.onUrl r.url))
  let edit ← orFail (a.formParams.evaluate c "form_params")
  let r := { r with url, headers }
  if edit.isEmpty || !carriesForm r.method r.headers then return r
  let form ← orFail (blame "form params" (edit.onForm r.body))
  return { r with body := Utf8.encode form }

end Attributes

/-- A request with another body. -/
def BackendRequest.withBody (r : BackendRequest) : Option (Bytes × String) → BackendRequest
  | none => r
  | some (body, mediaType) =>
    { r with body, headers := r.headers.insert contentType (Utf8.encode mediaType) }

namespace Producer

/-- What a request producer sends, before header fields, query and form are edited. -/
def ownRequest (a : Attributes) (c : Context) : Except Failure BackendRequest := do
  let body ← a.evalBody c
  let method := (← a.evalMethod c).getD (if body.isSome then "POST" else "GET")
  let url := (← a.evalUrl c).getD ""
  return ({ method, url } : BackendRequest).withBody body

/-- What a proxy sends, before header fields, query and form are edited. -/
def forwarded (a : Attributes) (client : ClientRequest) (c : Context) :
    Except Failure BackendRequest := do
  let method := (← a.evalMethod c).getD client.method
  let url := (← a.evalUrl c).getD client.pathAndQuery
  let url := match ← a.evalPath c with
    | some path => replacePath url path
    | none => url
  let body ← a.evalBody c
  return ({ method, url, headers := client.headers.endToEnd, body := client.body } :
    BackendRequest).withBody body

/-- The request that a producer sends. -/
def outbound (p : Producer) (client : ClientRequest) (c : Context) :
    Except Failure BackendRequest := do
  let request ← match p.kind with
    | .request => ownRequest p.attributes c
    | .proxy => forwarded p.attributes client c
  p.attributes.editRequest c request

/-- What a producer needs to know before its call: the statuses that count as success, and the
request. -/
def prepare (p : Producer) (client : ClientRequest) (results : ResultMap) :
    Except Failure (List Nat × BackendRequest) := do
  let c := Context.build client results none
  let expected ← p.attributes.evalExpected c
  return (expected, ← p.outbound client c)

/-- Edits the header fields of a response. -/
def editResponse (p : Producer) (client : ClientRequest) (results : ResultMap)
    (sent : BackendRequest) (response : Response) : Except Fault Response := do
  if p.attributes.responseHeaders.isEmpty then return response
  let c := Context.build client results (some (.success p.name sent response))
  let edit ← p.attributes.responseHeaders.evaluate c "response_headers"
  let headers ← blame "response headers" (edit.headers response.headers)
  return { response with headers }

/-- The result of a call that was answered. A response with an unexpected status is kept beside
the failure. -/
def conclude (p : Producer) (client : ClientRequest) (results : ResultMap) (expected : List Nat)
    (sent : BackendRequest) (response : Response) : ProducerResult :=
  match p.editResponse client results sent response with
  | .error fault => { name := p.name, request := some sent, failure := some (.ofFault fault) }
  | .ok response =>
    let result := ProducerResult.success p.name sent response
    if expected.isEmpty || expected.contains response.status then result
    else { result with failure := some (.unexpectedStatus p.name response.status) }

end Producer

end Gateway
