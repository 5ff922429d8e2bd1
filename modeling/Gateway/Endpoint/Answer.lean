import Gateway.Endpoint.Inbound

/-!
# Gateway.Endpoint.Answer — the response of an endpoint

What an endpoint answers once its producers have run. A faulty template or redirect is an error;
a faulty modifier of the response is passed over.
-/

set_option autoImplicit false

namespace Gateway

def Response.withBody (r : Response) (body mediaType : String) : Response :=
  { r with
    body := Utf8.encode body
    headers := r.headers.insert contentType (Utf8.encode mediaType) }

def ResponseTemplate.response (t : ResponseTemplate) (c : Context) :
    Except EndpointError Response := do
  let status ← match ← orReject (c.attribute? "response status" t.status) with
    | none => pure 200
    | some value => match value.status?.filter isStatus with
      | some status => pure status
      | none => throw (.evaluation ("response status: invalid status " ++ value.compact))
  let response : Response := { status }
  let response ← match ← orReject (c.attribute? "response json_body" t.jsonBody) with
    | some value => pure (response.withBody value.compact "application/json")
    | none => match ← orReject (c.attribute? "response body" t.body) with
      | some value => pure (response.withBody value.text "text/plain")
      | none => pure response
  let set ← orReject (c.attribute? "response headers" t.headers)
  let headers ← orReject (blame "response headers" (({ set } : Edit).headers response.headers))
  return { response with headers }

def Redirect.response (r : Redirect) (c : Context) : Except EndpointError Response := do
  let url := (← orReject (blame "redirect url" (c.evaluate r.url))).text
  if url.isEmpty then throw (.evaluation "redirect url: empty")
  match headerValue? url with
  | some location => return { status := r.status, headers := ⟨[(⟨"location"⟩, location)]⟩ }
  | none => throw (.evaluation ("redirect url: invalid location " ++ quote url))

/-- The result of a producer as the response to the client. -/
def passThrough (r : ProducerResult) : Except EndpointError Response :=
  match r.failure, r.response with
  | some f, _ => .error (.producer f)
  | none, none => .error (.producer .noResult)
  | none, some response => .ok { response with headers := response.headers.endToEnd }

namespace ResponseModifiers

/-- Edits the header fields of a response. A faulty rule does nothing; a faulty value ends the
editing where it is met. -/
def editHeaders (m : ResponseModifiers) (c : Context) (h : Headers) : Headers :=
  match m.headers.evaluate c "response_headers" with
  | .ok edit => (edit.onHeaders h).1
  | .error _ => h

/-- The status that replaces that of a response, if there is a usable one. -/
def newStatus? (m : ResponseModifiers) (c : Context) : Option Nat :=
  match c.evaluate? m.status with
  | .ok value => (value.bind Json.status?).filter fun n => 100 ≤ n ∧ n ≤ 599
  | .error _ => none

/-- Gives a response another status. One that means that there is no content takes the body
away. -/
def withStatus (r : Response) (status : Nat) : Response :=
  if status = 204 then { status, headers := r.headers.remove contentType, body := [] }
  else { r with status }

/-- The response as it is sent. -/
def apply (m : ResponseModifiers) (c : Context) (r : Response) : Response :=
  let r := { r with headers := m.editHeaders c r.headers }
  match m.newStatus? c with
  | some status => withStatus r status
  | none => r

end ResponseModifiers

namespace Endpoint

/-- The one result that an endpoint without template and redirect passes on. -/
def singleResult (e : Endpoint) : List ProducerResult → Except EndpointError ProducerResult
  | [r] => .ok r
  | rs => .error (.configuration ("endpoint " ++ quote e.pattern ++ " resolved "
      ++ toString rs.length ++ " results without response or redirect"))

/-- The response before it is edited, and the result it comes from if it is passed on. -/
def rawAnswer (e : Endpoint) (r : ClientRequest) (published : ResultMap)
    (rs : List ProducerResult) : Except EndpointError (Response × Option ProducerResult) := do
  match e.template, e.redirect with
  | some template, _ => return (← template.response (.build r published none), none)
  | none, some redirect => return (← redirect.response (.build r published none), none)
  | none, none =>
    let result ← e.singleResult rs
    return (← passThrough result, some result)

/-- The response to a request whose run has published results and yielded some. -/
def answer (e : Endpoint) (r : ClientRequest) (published : ResultMap)
    (rs : List ProducerResult) : Except EndpointError Response := do
  let (response, current) ← e.rawAnswer r published rs
  if e.responseModifiers.isEmpty then return response
  return e.responseModifiers.apply (.build r published current) response

end Endpoint

end Gateway
