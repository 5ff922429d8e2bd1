import Gateway.Run.Turn

/-!
# Gateway.Run.Work — the tasks of a run, and whose turn it is

Tasks take turns. Whoever has something to do stands in the row `ready`, once, and leaves it for
its turn; whoever is told of something joins at its end. The task of the plan as a whole, the
*root*, is an exception: it goes after all others, or after `burst` turns of others. The
cancellation from outside comes in the row as well.

A turn that achieves nothing leaves everything as it was. All others lower the `weight` of the
work: this is why the turns at one moment come to an end.
-/

set_option autoImplicit false

namespace Gateway

/-- A turn: that of a task, or the cancellation of the run from outside. -/
inductive Turn
  | cancellation
  | task (number : Nat)
  deriving DecidableEq, Repr

/-- The turn of the task that works at the plan as a whole. -/
def Turn.root : Turn := .task 0

/-- What a run is at: the board, the activity of the root, the tasks that were given up and have not
ended, and who is ready for a turn. `burst` is the number of turns that others may take before the
root; `turn` counts the turns, and `tasks` the tasks. -/
structure Work where
  board : Board
  root : Activity := .finished (.results [])
  givenUp : List (Nat × Activity) := []
  ready : List Turn := []
  burst : Nat
  turn : Nat := 0
  tasks : Nat := 1

namespace Work

/-- The turns of other tasks between two of the root. -/
def burstLimit : Nat := 61

/-- The work before any plan is begun. -/
def ofBoard (s : Setting) (b : Board) : Work where
  board := b
  ready := if s.cancelAt.isSome then [.cancellation] else []
  burst := burstLimit

/-- A bound on the turns that are left in which something is achieved. -/
def weight (w : Work) : Nat :=
  w.root.weight + Activity.tasksWeight w.givenUp + (if w.board.cancelled then 0 else 1)

/-- The calls that are under way. -/
def ongoing (w : Work) : List Ongoing := w.root.ongoing ++ Activity.tasksOngoing w.givenUp

/-- The tasks that listen for the cancellation, in the order in which they began to. -/
def listeners (w : Work) : List Nat :=
  ((Activity.tasksListeners ((0, w.root) :: w.givenUp)).mergeSort (·.1 ≤ ·.1)).map (·.2)

/-- Adds a task to the row, if it is not in it. -/
def join (w : Work) (task : Nat) : Work :=
  if w.ready.contains (.task task) then w else { w with ready := w.ready ++ [.task task] }

/-- Adds tasks to the row. -/
def joinAll (w : Work) (tasks : List Nat) : Work := tasks.foldl join w

/-- The tasks that notices are for. -/
def addressees (w : Work) (notices : List Notice) : List Nat :=
  notices.flatMap fun
    | .wake task => [task]
    | .cancelled => w.listeners

/-- Passes on the notices of the task that had its turn. What it tells itself it hears last. -/
def passOn (w : Work) (task : Nat) (notices : List Notice) : Work :=
  let tasks := w.addressees notices
  (w.joinAll (tasks.filter (· ≠ task))).joinAll (tasks.filter (· = task))

/-- What a task has before it in its turn. -/
def desk (w : Work) (task : Nat) : Desk :=
  { board := w.board, task, turn := w.turn, tasks := w.tasks }

/-- The work after a turn of a task. -/
def after (w : Work) (d : Desk) (root : Activity) (givenUp : List (Nat × Activity)) : Work :=
  { w with board := d.board, root, givenUp := givenUp ++ d.givenUp, turn := w.turn + 1,
           tasks := d.tasks }.passOn d.task d.notices

/-- The work after a turn of the root, which comes to another activity. -/
def afterRoot (w : Work) : Desk × Activity → Work
  | (d, root) => w.after d root w.givenUp

/-- A turn. -/
def take (s : Setting) (w : Work) : Turn → Work
  | .cancellation =>
    if !w.board.cancelled && s.cancelAt.any (· ≤ w.board.now) then
      { w with board := w.board.cancel }.joinAll w.listeners
    else w
  | .task 0 => w.afterRoot (Run.poll s (w.desk 0) w.root)
  | .task task =>
    let (d, root) := Run.visit s (w.desk task) 0 w.root
    let (d, givenUp) := Run.visitGivenUp s d w.givenUp
    w.after d root givenUp

/-- Whose turn it is, and the work with that turn taken out of the row. -/
def next? (w : Work) : Option (Turn × Work) :=
  match w.ready.filter (· ≠ .root) with
  | [] =>
    if w.ready.isEmpty then none
    else some (.root, { w with ready := [], burst := burstLimit })
  | turn :: others =>
    if w.burst = 0 && w.ready.contains .root then
      some (.root, { w with ready := turn :: others, burst := burstLimit })
    else
      some (turn, { w with ready := w.ready.erase turn,
                           burst := (if w.burst = 0 then burstLimit else w.burst) - 1 })

/-- Takes the next turn. One that achieves nothing leaves no trace. -/
def step? (s : Setting) (w : Work) : Option Work :=
  w.next?.map fun (turn, w) =>
    let taken := w.take s turn
    if taken.weight < w.weight then taken else w

/-- Begins a plan, in a turn of the root. -/
def begin (s : Setting) (w : Work) (plan : Plan) : Work :=
  w.afterRoot (Run.start s (w.desk 0) plan)

/-- Gives up the plan, which cancels the run: a task that has another turn before it ends makes no
call in it. -/
def drop (w : Work) : Work :=
  w.afterRoot (((w.desk 0).drop w.root).cancel, .finished (.results []))

/-- Moves the time on. The cancellation has its turn first if this is its time, and then the tasks
whose calls are due, in the order of the calls. -/
def advance (s : Setting) (w : Work) (time : Nat) : Work :=
  let due := (w.ongoing.filter (·.due.any (· ≤ time))).mergeSort (·.call ≤ ·.call)
  { w with board.now := max w.board.now time, burst := 0,
           ready := (if s.cancelAt = some time then [.cancellation] else []) ++
             due.map (.task ·.task) }

/-- Who is next leaves the row, and nothing else changes. -/
theorem next?_eq_some {w v : Work} {turn : Turn} (h : w.next? = some (turn, v)) :
    ∃ ready burst, v = { w with ready, burst } ∧ ready.length < w.ready.length := by
  unfold next? at h
  split at h
  · next hothers =>
    split at h
    · cases h
    · next hready =>
      cases h
      exact ⟨[], burstLimit, rfl, List.length_pos_iff.2 fun hnil => hready (by simp [hnil])⟩
  · next turn' others hothers =>
    split at h
    · next hroot =>
      cases h
      refine ⟨_, burstLimit, rfl, ?_⟩
      rw [← hothers]
      refine List.length_filter_lt_length_iff_exists.2 ⟨.root, ?_, by simp⟩
      exact (by simpa using hroot : w.burst = 0 ∧ Turn.root ∈ w.ready).2
    · cases h
      refine ⟨_, _, rfl, ?_⟩
      have hmem : turn ∈ w.ready :=
        (List.mem_filter.1 (hothers ▸ List.mem_cons_self : turn ∈ w.ready.filter (· ≠ .root))).1
      rw [List.length_erase_of_mem hmem]
      exact Nat.sub_lt (List.length_pos_of_mem hmem) Nat.one_pos

/-- The next turn leaves less to be done: less weight, or the same work and a shorter row. -/
theorem step?_eq_some {s : Setting} {w v : Work} (h : w.step? s = some v) :
    v.weight < w.weight ∨
      ∃ ready burst, v = { w with ready, burst } ∧ ready.length < w.ready.length := by
  obtain ⟨⟨turn, u⟩, hnext, hstep⟩ := Option.map_eq_some_iff.1 h
  obtain ⟨ready, burst, hu, hlt⟩ := next?_eq_some hnext
  simp only at hstep
  split at hstep
  · next hweight =>
    subst hstep hu
    exact .inl hweight
  · exact .inr ⟨ready, burst, hstep ▸ hu, hlt⟩

end Work

end Gateway
