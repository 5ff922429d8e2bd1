import Gateway.Run.Board

/-!
# Gateway.Run.Activity — plans at work

An activity is a plan that has been started: what has come of it, and what is left. One task works
at the plan as a whole, and every branch of a parallel is a task of its own, which works at its own
activity. So an activity holds activities of the same task (the step that a sequence is at) and of
others (the branches of a parallel).

While a task waits it may *listen* for the cancellation of the run. Tasks hear of it in the order in
which they began to listen; `since` tells the turn in which that was. A task that only waits for the
result of another one's call does not listen.
-/

set_option autoImplicit false

namespace Gateway

/-- What a plan comes to: results, or a panic. -/
inductive Yield
  | results (rs : List ProducerResult)
  | panic (message : Option String)
  deriving DecidableEq, Repr

def panicText (message : Option String) : String := message.getD "unknown panic"

/-- The results of a branch that announced these names: a panic fails them all. -/
def Yield.contained (names : List String) : Yield → List ProducerResult
  | .results rs => rs
  | .panic message => names.map fun name => .failed name (.ofPanic (panicText message))

/-- A call under way, made by a task in the turn `since`. `call` is its place in the log, and `cell`
tells whether it settles the cell of its producer. -/
structure Ongoing where
  task : Nat
  since : Nat
  call : Nat
  producer : Producer
  request : BackendRequest
  expected : List Nat
  due : Option Nat
  ending : Ending
  cell : Bool

/-- A plan at work. A `spawned` one is a branch that has not had a turn. The branches of a parallel
come with their tasks; what they came to has `arrived` before it is `collected`. -/
inductive Activity
  | finished (yield : Yield)
  | spawned (plan : Plan)
  | calling (o : Ongoing)
  | waiting (p : Producer)
  | stepping (since : Nat) (progressed : Bool) (names : List String) (current : Activity)
      (rest : List Plan)
  | gathering (since : Nat) (names : List String) (collected arrived : List ProducerResult)
      (branches : List (Nat × Activity))

mutual

/-- A bound on the turns that a plan takes. -/
def Plan.weight : Plan → Nat
  | .call _ => 3
  | .sequence steps => 1 + Plan.stepsWeight steps
  | .parallel branches => 2 + Plan.branchesWeight branches
  | .stub .. => 1

/-- A bound on the turns that the steps of a sequence take. -/
def Plan.stepsWeight : List Plan → Nat
  | [] => 0
  | step :: rest => Plan.weight step + Plan.stepsWeight rest

/-- A bound on the turns that the branches of a parallel take. -/
def Plan.branchesWeight : List Plan → Nat
  | [] => 0
  | branch :: rest => 1 + Plan.weight branch + Plan.branchesWeight rest

end

namespace Activity

/-- Whether there is nothing left to do. -/
def isFinished : Activity → Bool
  | .finished _ => true
  | _ => false

/-- The names of the results that an activity will yield. -/
def names : Activity → List String
  | .finished (.results rs) => rs.map (·.name)
  | .finished (.panic _) => []
  | .spawned plan => plan.names
  | .calling o => [o.producer.name]
  | .waiting p => [p.name]
  | .stepping _ _ names _ _ => names
  | .gathering _ names _ _ _ => names

/-- The turn since when the task of an activity listens for the cancellation: who stands outside
began before what is inside. -/
def since? : Activity → Option Nat
  | .calling o => some o.since
  | .stepping since _ _ _ _ | .gathering since _ _ _ _ => some since
  | _ => none

mutual

/-- A bound on the turns that are left of an activity. -/
def weight : Activity → Nat
  | .finished _ => 0
  | .spawned plan => plan.weight
  | .calling _ => 1
  | .waiting _ => 2
  | .stepping _ _ _ current rest => 1 + weight current + Plan.stepsWeight rest
  | .gathering _ _ _ arrived branches =>
    1 + (if arrived.isEmpty then 0 else 1) + tasksWeight branches

/-- A bound on the turns that are left of several tasks. -/
def tasksWeight : List (Nat × Activity) → Nat
  | [] => 0
  | (_, a) :: rest => 1 + weight a + tasksWeight rest

end

mutual

/-- The calls that are under way within an activity. -/
def ongoing : Activity → List Ongoing
  | .calling o => [o]
  | .stepping _ _ _ current _ => ongoing current
  | .gathering _ _ _ _ branches => tasksOngoing branches
  | _ => []

/-- The calls that several tasks have under way. -/
def tasksOngoing : List (Nat × Activity) → List Ongoing
  | [] => []
  | (_, a) :: rest => ongoing a ++ tasksOngoing rest

end

mutual

/-- The tasks of the branches within an activity that listen for the cancellation, each after the
turn since when. -/
def listeners : Activity → List (Nat × Nat)
  | .stepping _ _ _ current _ => listeners current
  | .gathering _ _ _ _ branches => tasksListeners branches
  | _ => []

/-- Those of several tasks, and of the branches within them, that listen for the cancellation. -/
def tasksListeners : List (Nat × Activity) → List (Nat × Nat)
  | [] => []
  | (task, a) :: rest =>
    (since? a).toList.map (·, task) ++ listeners a ++ tasksListeners rest

end

end Activity

/-- The results of a sequence that is given up because of a failure. -/
def skipped (names : List String) (f : Failure) : List ProducerResult :=
  names.map fun name => .failed name (f.inSequence name)

/-- The results of a sequence that is cancelled; `progressed` if a step of it was complete. -/
def interrupted (progressed : Bool) (names : List String) : List ProducerResult :=
  skipped names (if progressed then .cancelled else .noResult)

/-- Crosses a name off a list; the last one takes its place. -/
def crossOff (names : List String) (name : String) : List String :=
  match names.idxOf? name with
  | some i => (names.set i (names.getLastD name)).dropLast
  | none => names

/-- The announced names that have no result yet. -/
def missing (names : List String) (collected : List ProducerResult) : List String :=
  collected.foldl (fun names r => crossOff names r.name) names

/-- The collected results, and a cancelled one for every name that has none. -/
def completedWith (names : List String) (collected : List ProducerResult) : List ProducerResult :=
  collected ++ (missing names collected).map fun name => .failed name .cancelled

end Gateway
