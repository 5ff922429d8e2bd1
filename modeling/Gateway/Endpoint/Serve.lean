import Gateway.Endpoint.Answer
import Gateway.Run.Clock

/-!
# Gateway.Endpoint.Serve — serving requests

A request goes through an endpoint: its body is measured, it is edited, the plan is run, the
results are published, and the answer is made. A run that was cancelled has no answer, whatever
its producers came to.
-/

set_option autoImplicit false

namespace Gateway

/-- What becomes of a request. A client that goes away gets nothing. -/
inductive Served (α : Type)
  | answered (answer : α)
  | refused (e : EndpointError)
  | dropped
  | stalled

/-- The circumstances of a request: what the backends do, and whether and when the client cancels
it or goes away. -/
structure Circumstances where
  backends : Backends
  cancelled : Bool := false
  cancelAt : Option Nat := none
  dropAt : Option Nat := none

namespace Endpoint

/-- The body limit as a check. -/
def checkBody (e : Endpoint) (r : ClientRequest) : Except EndpointError Unit :=
  if e.bodyLimit < r.body.length then .error (.bodyTooLarge e.bodyLimit) else .ok ()

/-- Runs the plan of an endpoint for a request that has been edited. -/
def run (e : Endpoint) (c : Circumstances) (r : ClientRequest) : Ended :=
  let s : Setting :=
    { client := r, backends := c.backends, cancelAt := c.cancelAt, dropAt := c.dropAt }
  e.graph.plan.run s { Board.ofPlan e.graph.plan with cancelled := c.cancelled }

/-- What is made of the end of a run. A panic of the whole run has no answer. -/
def conclude {α : Type} (answer : Board → List ProducerResult → Except EndpointError α)
    (ended : Ended) : Served α :=
  match ended.outcome with
  | .finished (.results rs) =>
    match answer (ended.board.publish rs) rs with
    | .ok a => .answered a
    | .error e => .refused e
  | .finished (.panic _) | .stalled => .stalled
  | .dropped => .dropped

/-- Serves a request: what becomes of it, and the calls that were made. -/
def serve (e : Endpoint) (c : Circumstances) (r : ClientRequest) : Served Response × List Call :=
  match (do e.checkBody r; e.requestModifiers.apply r) with
  | .error error => (.refused error, [])
  | .ok r =>
    let ended := e.run c r
    (conclude (fun b rs =>
      if b.cancelled then .error (.producer .cancelled) else e.answer r b.results rs) ended,
      ended.calls)

/-- Serves a request, with a response to every error. -/
def handle (e : Endpoint) (c : Circumstances) (r : ClientRequest) : Served Response × List Call :=
  match e.serve c r with
  | (.refused error, calls) => (.answered error.response, calls)
  | served => served

/-- Runs the producers for a request and gives their results. The body is not measured. -/
def produce (e : Endpoint) (c : Circumstances) (r : ClientRequest) :
    Served (List ProducerResult) × List Call :=
  match e.requestModifiers.apply r with
  | .error error => (.refused error, [])
  | .ok r =>
    let ended := e.run c r
    (conclude (fun _ rs => .ok rs) ended, ended.calls)

end Endpoint

end Gateway
