import Gateway.Http.Message
import Gateway.Producer.Failure

/-!
# Gateway.Endpoint.Error — why an endpoint has no answer

The client of a failing endpoint learns the kind of failure and no more. A failure within the
gateway is the server's fault, a body that is too large the client's, and all else comes from a
backend; of that only a timeout is told apart.
-/

set_option autoImplicit false

namespace Gateway

/-- Why an endpoint has no answer. -/
inductive EndpointError
  | configuration (message : String)
  | evaluation (message : String)
  | bodyTooLarge (limit : Nat)
  | producer (f : Failure)
  deriving DecidableEq, Repr

namespace EndpointError

/-- The kind of an error, as responses name it. -/
def kind : EndpointError → String
  | .configuration _ => "configuration"
  | .evaluation _ => "evaluation"
  | .bodyTooLarge _ => "client_request_body_size_exceeded"
  | .producer f => f.kind

def message : EndpointError → String
  | .configuration text => "configuration error: " ++ text
  | .evaluation text => "evaluation error: " ++ text
  | .bodyTooLarge limit => "request body exceeds limit of " ++ toString limit ++ " bytes"
  | .producer f => f.message

/-- The status of the response to an error. -/
def status : EndpointError → Nat
  | .configuration _ | .evaluation _ | .producer (.evaluation ..) => 500
  | .bodyTooLarge _ => 413
  | .producer (.transport _ text) => if hasText "timeout" text then 504 else 502
  | .producer _ => 502

/-- The body of the response to an error: what its status means. -/
def reason (e : EndpointError) : String :=
  match e.status with
  | 413 => "Payload Too Large"
  | 502 => "Bad Gateway"
  | 504 => "Gateway Timeout"
  | _ => "Internal Server Error"

def response (e : EndpointError) : Response where
  status := e.status
  headers := ⟨[(contentType, Utf8.encode "text/plain; charset=utf-8"),
    (⟨"x-gateway-error"⟩, Utf8.encode e.kind)]⟩
  body := Utf8.encode e.reason

end EndpointError

end Gateway
