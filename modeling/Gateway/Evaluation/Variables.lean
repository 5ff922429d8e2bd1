import Gateway.Evaluation.Context
import Gateway.Producer.Result

/-!
# Gateway.Evaluation.Variables — what expressions see of a request

Five variables: the client's request, what published results hold of requests to backends and of
their responses, by producer name, and one request and one response without a name. These are
those of the producer at hand while its response is edited, and of the producer `default`
otherwise.
-/

set_option autoImplicit false

namespace Gateway

/-- The name of a producer that is given none. -/
def defaultProducer : String := "default"

def bytesValue (bs : Bytes) : Json := .string (Utf8.decodeLossy bs)

/-- Header fields as an object; the values of one name are joined. -/
def headersValue (h : Headers) : Json :=
  Json.ofFields (h.names.map fun name =>
    (name.text, .string (", ".intercalate ((h.values name).map Utf8.decodeLossy))))

/-- The parameters of a query as an object of lists. -/
def queryValue (query : Option String) : Json :=
  let params := (query.map Form.decode).getD []
  Json.ofFields (params.map fun (name, _) =>
    (name, .array ((params.filter (·.1 = name)).map fun (_, value) => .string value)))

/-- A body as JSON, null when it is none. -/
def jsonBodyValue (body : Bytes) : Json := (jsonBody body).getD .null

/-- A client's request as expressions see it. -/
def ClientRequest.value (r : ClientRequest) : Json :=
  Json.ofFields [("id", .string r.id), ("method", .string r.method), ("path", .string r.path),
    ("url", .string r.uri.display), ("query", queryValue r.query),
    ("headers", headersValue r.headers), ("body", bytesValue r.body),
    ("json_body", jsonBodyValue r.body)]

/-- A backend's response as expressions see it. -/
def Response.value (r : Response) : Json :=
  Json.ofFields [("status", .ofNat r.status), ("headers", headersValue r.headers),
    ("body", bytesValue r.body), ("json_body", jsonBodyValue r.body)]

/-- A request to a backend as expressions see it. -/
def BackendRequest.value (r : BackendRequest) : Json :=
  Json.ofFields [("method", .string r.method), ("url", .string r.url), ("path", .string r.path),
    ("query", queryValue r.query), ("headers", headersValue r.headers),
    ("body", bytesValue r.body)]

/-- What the published results hold under `part`, by producer name. -/
def publishedValues {α : Type} (part : ProducerResult → Option α) (value : α → Json)
    (results : ResultMap) : Json :=
  Json.ofFields (results.completed.filterMap fun r => (part r).map fun a => (r.name, value a))

/-- The variables for a request after some results, and for the result of the producer at hand if
there is one. -/
def Context.build (request : ClientRequest) (results : ResultMap)
    (current : Option ProducerResult) : Context :=
  let unnamed {α : Type} (part : ProducerResult → Option α) (value : α → Json) : Json :=
    (((current.orElse fun _ => results.get? defaultProducer).bind part).map value).getD .null
  ⟨Json.Members.ofList [
    (Variable.request.name, request.value),
    (Variable.backendResponses.name, publishedValues (·.response) Response.value results),
    (Variable.backendRequests.name, publishedValues (·.request) BackendRequest.value results),
    (Variable.backendResponse.name, unnamed (·.response) Response.value),
    (Variable.backendRequest.name, unnamed (·.request) BackendRequest.value)]⟩

end Gateway
