import Gateway.Plan.Basic
import Gateway.Producer.Outbound

/-!
# Gateway.Run.Board — what a run has done so far

A run carries out a plan for one request of a client. All that its parts share is on the board:
the time, whether the run is cancelled, the published results, a log of the calls, one of what
producers saw and one of the results that were handed out, and a *cell* for every producer of the
plan. Whoever needs a producer first takes its cell and makes the call; everyone else stands in
line for the result that settles the cell. So a producer is called once, however often it stands in
the plan. Should the call be given up, the cell is offered to whoever stands first in the line.

The parts of a run are tasks, and a task is known by its number.
-/

set_option autoImplicit false

namespace Gateway

/-- How a backend ends a call. A panic may come without a text. -/
inductive Ending
  | response (r : Response)
  | failure (f : Failure)
  | panic (message : Option String)
  deriving DecidableEq, Repr

/-- What a backend does when it is called: how the call ends, after how many milliseconds if it
ends at all, and whether the backend cancels the run at once. -/
structure Reply where
  ending : Ending
  delay : Option Nat := some 0
  cancels : Bool := false
  deriving DecidableEq, Repr

/-- What the backends do: their reply to the request of a producer's `n`-th call. -/
abbrev Backends := Producer → Nat → BackendRequest → Reply

/-- What a run is given: the client's request, the backends, and the times at which it is
cancelled or dropped from outside. -/
structure Setting where
  client : ClientRequest
  backends : Backends
  cancelAt : Option Nat := none
  dropAt : Option Nat := none

/-- Whether a call still runs, has come to its end, or was given up before. -/
inductive CallState
  | running
  | answered
  | abandoned
  deriving DecidableEq, Repr

/-- A call in the log. -/
structure Call where
  producer : Producer
  request : BackendRequest
  start : Nat
  state : CallState

/-- What a producer saw when its attributes were evaluated: the results published by then. -/
structure Sight where
  producer : Producer
  results : ResultMap

/-- What a place of a plan was handed as the result of its producer. -/
structure Receipt where
  producer : Producer
  result : ProducerResult

/-- Where a producer's call stands: nobody has begun it; somebody is at it, and a line of tasks
waits; somebody gave it up, and the task that stood first may have it; or it has a result. -/
inductive Cell
  | vacant
  | taken (line : List Nat)
  | offered (task : Nat) (line : List Nat)
  | settled (r : ProducerResult)
  deriving DecidableEq, Repr

namespace Cell

/-- The cell after its call was given up: it is offered to the first of the line. -/
def release : List Nat → Cell
  | [] => .vacant
  | task :: line => .offered task line

/-- The tasks in the line. -/
def line : Cell → List Nat
  | .taken line | .offered _ line => line
  | _ => []

/-- The cell after a task has joined the line. -/
def join (task : Nat) : Cell → Cell
  | .taken line => .taken (line ++ [task])
  | .offered first line => .offered first (line ++ [task])
  | cell => cell

/-- The cell after a task has left the line. What was offered to it is offered to the next. -/
def leave (task : Nat) : Cell → Cell
  | .taken line => .taken (line.erase task)
  | .offered first line => if first = task then release line else .offered first (line.erase task)
  | cell => cell

/-- The task that the cell is offered to. -/
def offeredTo : Cell → Option Nat
  | .offered task _ => some task
  | _ => none

end Cell

/-- What the parts of a run share. -/
structure Board where
  now : Nat := 0
  cancelled : Bool := false
  results : ResultMap
  cells : Nat → Option Cell
  calls : List Call := []
  sights : List Sight := []
  receipts : List Receipt := []

namespace Board

/-- The board before anything of a plan is done. -/
def ofPlan (plan : Plan) : Board where
  results := .ofNames (plan.producers.map (·.name))
  cells id := if plan.producers.any (·.id = id) then some .vacant else none

def publish (b : Board) (rs : List ProducerResult) : Board :=
  { b with results := b.results.publishAll rs }

/-- Puts a new value into a cell. -/
def setCell (b : Board) (id : Nat) (cell : Cell) : Board :=
  { b with cells := fun i => if i = id then some cell else b.cells i }

/-- The number of calls a producer has had. -/
def callCount (b : Board) (p : Producer) : Nat :=
  (b.calls.filter fun call => call.producer.id = p.id).length

/-- Notes what a producer sees. -/
def look (b : Board) (p : Producer) : Board := { b with sights := b.sights ++ [⟨p, b.results⟩] }

/-- Notes what a place of a producer is handed. -/
def hand (b : Board) (p : Producer) (r : ProducerResult) : Board :=
  { b with receipts := b.receipts ++ [⟨p, r⟩] }

/-- Enters a call into the log. -/
def enter (b : Board) (p : Producer) (request : BackendRequest) : Board :=
  { b with calls := b.calls ++ [⟨p, request, b.now, .running⟩] }

/-- Notes how a call of the log stands. -/
def mark (b : Board) (call : Nat) (state : CallState) : Board :=
  { b with calls := b.calls.modify call fun c => { c with state } }

def cancel (b : Board) : Board := { b with cancelled := true }

end Board

end Gateway
