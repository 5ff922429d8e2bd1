import Gateway.Backend.Basic
import Gateway.Http.Url
import Gateway.Producer.Failure

/-!
# Gateway.Backend.Exchange — sending a request over a network

The network is given as a function from absolute requests to what comes of them. A url that is not
of the web, or that cannot be the target of a request, is refused before anything is sent.
-/

set_option autoImplicit false

namespace Gateway

/-- What comes of sending a request: a response, nothing within the time of the backend, no
exchange at all, or a response whose body does not arrive, because the time has run out by then
(`late`) or for another reason. -/
inductive Exchange
  | answered (r : Response)
  | timedOut
  | failed
  | cutOff (late : Bool) (reason : String)
  deriving DecidableEq, Repr

/-- What comes of the requests that are sent. -/
abbrev Network := BackendRequest → Exchange

/-- The response, or the text of the failure of a request that went to this url and had this time. -/
def Exchange.result (timeout : Nat) (url : String) : Exchange → Except String Response
  | .answered response => .ok response
  | .timedOut => .error ("backend timeout after " ++ toString timeout ++ "ms")
  | .failed => .error ("error sending request for url (" ++ url ++ ")")
  | .cutOff _ reason => .error ("reading body: " ++ reason)

namespace Backend

def transport (b : Backend) (message : String) : Failure := .transport b.name message

/-- The request that goes over the network for a request to the backend: to an absolute url, and with
the header fields of the backend. -/
def outgoing (b : Backend) (r : BackendRequest) : Except String BackendRequest := do
  let url ← (Url.read (b.resolve r.url)).mapError fun _ => "builder error"
  let url := url.withoutUser
  if url.isHttp && (Uri.read url.display).isOk then
    return { r with url := url.display, headers := b.withDefaults r.headers }
  throw ("builder error for url (" ++ url.display ++ ")")

/-- Sends a request and waits for the response. -/
def execute (b : Backend) (network : Network) (r : BackendRequest) : Except Failure Response :=
  (do let sent ← b.outgoing r
      (network sent).result b.timeout sent.url).mapError b.transport

end Backend

end Gateway
