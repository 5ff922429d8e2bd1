import Gateway.Run.Activity

/-!
# Gateway.Run.Turn — what a task does in its turn

In its turn a task goes as far as it can without waiting. A sequence goes on to its next step as
soon as one is complete. A parallel makes a task of every branch, and from then on only collects
what those tasks came to. A call that is not due leaves its task waiting.

A cancelled sequence gives up the step it is at, and a cancelled parallel its branches. What a task
gives up of its own is dropped on the spot; a branch is another task, so it is only *given up*: it
ends when its turn comes, and until then keeps the cell it has taken.

What a turn makes possible for others it leaves as notices, in the order in which that came about.
-/

set_option autoImplicit false

namespace Gateway

/-- What a turn tells the others: a task has something to do, or the run is cancelled. -/
inductive Notice
  | wake (task : Nat)
  | cancelled
  deriving DecidableEq, Repr

/-- What the task whose turn it is has before it: the board; its own number, that of the turn, and
the first number that no task has; and what it leaves: notices, and the tasks that it gave up. -/
structure Desk where
  board : Board
  task : Nat
  turn : Nat
  tasks : Nat
  notices : List Notice := []
  givenUp : List (Nat × Activity) := []

namespace Desk

/-- Leaves word that tasks have something to do. -/
def wake (d : Desk) (tasks : List Nat) : Desk :=
  { d with notices := d.notices ++ tasks.map .wake }

/-- Cancels the run, if it is not cancelled. -/
def cancel (d : Desk) : Desk :=
  if d.board.cancelled then d
  else { d with board := d.board.cancel, notices := d.notices ++ [.cancelled] }

/-- Makes a task of each of the plans. -/
def spawn (d : Desk) (plans : List Plan) : Desk × List (Nat × Activity) :=
  let spawned := (plans.zipIdx d.tasks).map fun (plan, task) => (task, Activity.spawned plan)
  ({ d with tasks := d.tasks + plans.length }.wake (spawned.map Prod.fst), spawned)

/-- Gives up tasks. Each has one more turn, in which it ends. -/
def giveUp (d : Desk) (tasks : List (Nat × Activity)) : Desk :=
  { d with givenUp := d.givenUp ++ tasks }.wake (tasks.map Prod.fst)

/-- Puts a new value into a cell, and wakes the task that it is offered to. -/
def setCell (d : Desk) (id : Nat) (cell : Cell) : Desk :=
  { d with board := d.board.setCell id cell }.wake cell.offeredTo.toList

/-- Settles a cell; all who wait for the result are woken. -/
def settleCell (d : Desk) (id : Nat) (r : ProducerResult) : Desk :=
  { d with board := d.board.setCell id (.settled r) }.wake
    ((d.board.cells id).elim [] Cell.line)

/-- Gives a cell back that has no result. -/
def releaseCell (d : Desk) (id : Nat) : Desk :=
  d.setCell id (.release ((d.board.cells id).elim [] Cell.line))

/-- Leaves the line for a cell. -/
def leaveLine (d : Desk) (id : Nat) : Desk :=
  match d.board.cells id with
  | some cell => d.setCell id (cell.leave d.task)
  | none => d

/-- Drops an activity of the task. Its call is abandoned, and its cell is free again. -/
def drop (d : Desk) : Activity → Desk
  | .finished _ | .spawned _ => d
  | .calling o =>
    let d := { d with board := d.board.mark o.call .abandoned }
    if o.cell then d.releaseCell o.producer.id else d
  | .waiting p => d.leaveLine p.id
  | .stepping _ _ _ current _ => drop d current
  | .gathering _ _ _ _ branches => d.giveUp branches

end Desk

namespace Run

/-- A place of a producer is handed the result. -/
def receive (d : Desk) (p : Producer) (r : ProducerResult) : Desk × Activity :=
  ({ d with board := d.board.hand p r }, .finished (.results [r]))

/-- The end of a producer's call: its result, which settles the cell. -/
def settle (d : Desk) (p : Producer) (cell : Bool) (r : ProducerResult) : Desk × Activity :=
  receive (if cell then d.settleCell p.id r else d) p r

/-- The result of a producer whose call came to an end, after some results. -/
def outcome (client : ClientRequest) (results : ResultMap) (p : Producer) (expected : List Nat)
    (request : BackendRequest) : Ending → ProducerResult
  | .response response => p.conclude client results expected request response
  | .failure f => { ProducerResult.failed p.name f with request := some request }
  | .panic message => .failed p.name (.ofPanic (panicText message))

/-- The result of a call that has come to its end. -/
def callResult (s : Setting) (b : Board) (o : Ongoing) : ProducerResult :=
  outcome s.client b.results o.producer o.expected o.request o.ending

/-- Ends a call. -/
def complete (s : Setting) (d : Desk) (o : Ongoing) : Desk × Activity :=
  settle { d with board := (d.board.mark o.call .answered).look o.producer } o.producer o.cell
    (callResult s d.board o)

/-- Makes the call of a producer. Nothing is sent when the run is cancelled or the request cannot
be made. -/
def invoke (s : Setting) (d : Desk) (p : Producer) (cell : Bool) : Desk × Activity :=
  if d.board.cancelled then settle d p cell (.failed p.name .cancelled)
  else
    let d := { d with board := d.board.look p }
    match p.prepare s.client d.board.results with
    | .error f => settle d p cell (.failed p.name f)
    | .ok (expected, request) =>
      let reply := s.backends p (d.board.callCount p) request
      let o : Ongoing :=
        { task := d.task, since := d.turn, call := d.board.calls.length, producer := p, request,
          expected, due := reply.delay.map (d.board.now + ·), ending := reply.ending, cell }
      let d := { d with board := d.board.enter p request }
      let d := if reply.cancels then d.cancel else d
      if reply.delay = some 0 then complete s d o else (d, .calling o)

/-- Takes the cell of a producer and makes its call; the line stays. -/
def takeCell (s : Setting) (d : Desk) (p : Producer) (line : List Nat) : Desk × Activity :=
  invoke s { d with board := d.board.setCell p.id (.taken line) } p true

/-- Asks for the result of a producer. Who finds its cell vacant makes the call, and everyone else
joins the line; a producer without a cell is called every time. -/
def request (s : Setting) (d : Desk) (p : Producer) : Desk × Activity :=
  match d.board.cells p.id with
  | some (.settled r) => receive d p r
  | some .vacant => takeCell s d p []
  | some cell => ({ d with board := d.board.setCell p.id (cell.join d.task) }, .waiting p)
  | none => invoke s d p false

/-- Looks again for the result of a producer from the line for its cell. The call is made after
all if the cell is offered to the task. -/
def recheck (s : Setting) (d : Desk) (p : Producer) : Desk × Activity :=
  match d.board.cells p.id with
  | some (.settled r) => receive d p r
  | some (.offered task line) =>
    if task = d.task then takeCell s d p line else (d, .waiting p)
  | _ => (d, .waiting p)

/-- Looks at a call under way. -/
def pollCall (s : Setting) (d : Desk) (o : Ongoing) : Desk × Activity :=
  if d.board.cancelled then
    settle { d with board := d.board.mark o.call .abandoned } o.producer o.cell
      { ProducerResult.failed o.producer.name .cancelled with request := some o.request }
  else if o.due.any (· ≤ d.board.now) then complete s d o
  else (d, .calling o)

/-- What follows a step of a sequence. The results of the last step are those of the sequence;
those of another step are published, and a failure among them ends the sequence. A step that is
not complete keeps the sequence waiting, which listens `since` that step began. -/
def afterStep (since : Nat) (progressed : Bool) (names : List String) (rest : List Plan)
    (next : Desk → Desk × Activity) : Desk × Activity → Desk × Activity
  | (d, .finished (.panic message)) => (d, .finished (.panic message))
  | (d, .finished (.results rs)) =>
    if rest.isEmpty then (d, .finished (.results rs))
    else
      let d := { d with board := d.board.publish rs }
      match firstFailure? rs with
      | some f => (d, .finished (.results (skipped names f)))
      | none => next d
  | (d, current) => (d, .stepping since progressed names current rest)

/-- Collects what the branches of a parallel came to. The parallel ends when it has as many results
as it announced, when no branch is left, or when the run is cancelled: then branches that are left
are given up, further results are dropped, and names without a result are cancelled. Until then it
listens for the cancellation, from every result on anew. -/
def collect (d : Desk) (since : Nat) (names : List String)
    (collected arrived : List ProducerResult) (branches : List (Nat × Activity)) :
    Desk × Activity :=
  let results := collected ++ arrived
  if d.board.cancelled || names.length ≤ results.length || branches.isEmpty then
    (d.giveUp branches, .finished (.results (completedWith names (results.take names.length))))
  else
    (d, .gathering (if arrived.isEmpty then since else d.turn) names results [] branches)

mutual

/-- Begins a plan. -/
def start (s : Setting) (d : Desk) : Plan → Desk × Activity
  | .call p => request s d p
  | .sequence steps => startSteps s d false (Plan.lastNames steps) steps
  | .parallel branches =>
    let names := Plan.allNames branches
    if names.isEmpty then (d, .finished (.results []))
    else
      let (d, tasks) := d.spawn branches
      collect d d.turn names [] [] tasks
  | .stub _ _ (some message) => (d, .finished (.panic message))
  | .stub _ yielded none =>
    (d, .finished (.results (yielded.map fun name => .failed name .noResult)))

/-- Begins the first of the steps that are left of a sequence, and goes on with the others. -/
def startSteps (s : Setting) (d : Desk) (progressed : Bool) (names : List String) :
    List Plan → Desk × Activity
  | [] => (d, .finished (.results []))
  | step :: rest =>
    if d.board.cancelled then (d, .finished (.results (interrupted progressed names)))
    else
      afterStep d.turn progressed names rest (fun d => startSteps s d true names rest)
        (start s d step)

end

/-- Goes on with an activity of the task. -/
def poll (s : Setting) (d : Desk) : Activity → Desk × Activity
  | .finished yield => (d, .finished yield)
  | .spawned plan => start s d plan
  | .calling o => pollCall s d o
  | .waiting p => recheck s d p
  | .stepping since progressed names current rest =>
    if d.board.cancelled then
      (d.drop current, .finished (.results (interrupted progressed names)))
    else
      afterStep since progressed names rest (fun d => startSteps s d true names rest)
        (poll s d current)
  | .gathering since names collected arrived branches =>
    collect d since names collected arrived branches

mutual

/-- The turn of a branch somewhere within an activity of the task `owner`. The results of a branch
go to the parallel it belongs to, and wake its task; so does the end of the last branch. -/
def visit (s : Setting) (d : Desk) (owner : Nat) : Activity → Desk × Activity
  | .stepping since progressed names current rest =>
    let (d, current) := visit s d owner current
    (d, .stepping since progressed names current rest)
  | .gathering since names collected arrived branches =>
    let (d, results, branches) := visitBranches s d branches
    (if results.isEmpty && !branches.isEmpty then d else d.wake [owner],
      .gathering since names collected (arrived ++ results) branches)
  | a => (d, a)

/-- The turn of one of several branches, or of a branch within them: the results if it is over, and
the branches that are left. -/
def visitBranches (s : Setting) (d : Desk) : List (Nat × Activity) →
    Desk × List ProducerResult × List (Nat × Activity)
  | [] => (d, [], [])
  | (task, a) :: rest =>
    if task = d.task then
      match poll s d a with
      | (d, .finished yield) => (d, yield.contained a.names, rest)
      | (d, a) => (d, [], (task, a) :: rest)
    else
      let (d, a) := visit s d task a
      let (d, results, rest) := visitBranches s d rest
      (d, results, (task, a) :: rest)

end

/-- The turn of a task that has been given up, which ends it, or of a branch within such tasks. -/
def visitGivenUp (s : Setting) (d : Desk) : List (Nat × Activity) → Desk × List (Nat × Activity)
  | [] => (d, [])
  | (task, a) :: rest =>
    if task = d.task then (d.drop a, rest)
    else
      let (d, a) := visit s d task a
      let (d, rest) := visitGivenUp s d rest
      (d, (task, a) :: rest)

end Run

end Gateway
