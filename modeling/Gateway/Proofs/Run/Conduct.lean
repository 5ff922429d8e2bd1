import Gateway.Proofs.Run.Wakes
import Gateway.Proofs.Run.Moves

/-!
# Gateway.Proofs.Run.Conduct — what turns keep of a desk

A turn is made up of a few things that are done to the desk of a task: the board is written on, tasks
are woken, made and given up, calls are sent, answered and abandoned. Whatever each of these keeps is
kept by the turn, which is shown once here. Along with the desk goes the multiset of the numbers of
the tasks that are at work, so that these can be kept apart.

When the run is cancelled no call is sent and none is answered: the two are only asked of a desk on
which it is not. Backends that answer at once are the reason why `send` is about both.

A `Conduct` and a `Discipline` both say what turns keep, and neither can do the work of the other. A
discipline is about the board and what activities hold, it knows what a cell was before a deed, and it
needs plans that may be begun. A conduct takes any plan and any activity, stubs included, and sees of a
write on the board only that clock, log and cancellation are left alone. What is said after a
cancellation is said by conducts, because it does not depend on what results hold.
-/

set_option autoImplicit false

namespace Gateway

open Activity (tasksInner)

/-- Something that is kept by all that a task can do. -/
structure Conduct (s : Setting) where
  Holds : Desk → Multiset Nat → Prop
  fewer {d : Desk} {numbers numbers' : Multiset Nat} :
    Holds d numbers → numbers' ≤ numbers → Holds d numbers'
  write {d : Desk} {numbers : Multiset Nat} {b : Board} :
    Holds d numbers → b.now = d.board.now → b.cancelled = d.board.cancelled →
      b.calls = d.board.calls → Holds { d with board := b } numbers
  wake {d : Desk} {numbers : Multiset Nat} (tasks : List Nat) :
    Holds d numbers → Holds (d.wake tasks) numbers
  spawn {d : Desk} {numbers : Multiset Nat} (plans : List Plan) :
    Holds d numbers → Holds (d.spawn plans).1 (↑(tasksInner (d.spawn plans).2) + numbers)
  giveUp {d : Desk} {numbers : Multiset Nat} {tasks : List (Nat × Activity)} :
    Holds d (↑(tasksInner tasks) + numbers) → Holds (d.giveUp tasks) numbers
  abandon {d : Desk} {numbers : Multiset Nat} (call : Nat) :
    Holds d numbers → Holds { d with board := d.board.mark call .abandoned } numbers
  answer {d : Desk} {numbers : Multiset Nat} (call : Nat) : d.board.cancelled = false →
    Holds d numbers → Holds { d with board := d.board.mark call .answered } numbers
  send {d : Desk} {numbers : Multiset Nat} (p : Producer) (request : BackendRequest) :
    d.board.cancelled = false → Holds d numbers → Holds (Run.sent s d p request) numbers ∧
      ∀ call, Holds { Run.sent s d p request with
        board := (Run.sent s d p request).board.mark call .answered } numbers

namespace Conduct

variable {s : Setting} (C : Conduct s) {d : Desk} {rest : Multiset Nat} {p : Producer}

/-- What a task leaves: its desk, and the tasks within its activity next to those of others. -/
def Leaves (rest : Multiset Nat) (out : Desk × Activity) : Prop :=
  C.Holds out.1 (↑out.2.inner + rest)

variable {C}

theorem leaves_of_alone {a : Activity} (ha : a.inner = []) (h : C.Holds d rest) :
    C.Leaves rest (d, a) := by
  apply C.fewer h
  show ↑a.inner + rest ≤ rest
  rw [ha]
  exact (Multiset.zero_add rest).le

/-! ## Calls -/

theorem leaves_receive {r : ProducerResult} (h : C.Holds d rest) :
    C.Leaves rest (Run.receive d p r) :=
  leaves_of_alone rfl (C.write h rfl rfl rfl)

theorem leaves_settle {cell : Bool} {r : ProducerResult} (h : C.Holds d rest) :
    C.Leaves rest (Run.settle d p cell r) := by
  cases cell with
  | true => exact leaves_receive (C.wake _ (C.write h rfl rfl rfl))
  | false => exact leaves_receive h

theorem leaves_complete {o : Ongoing}
    (h : C.Holds { d with board := d.board.mark o.call .answered } rest) :
    C.Leaves rest (Run.complete s d o) := by
  unfold Run.complete
  apply leaves_settle
  exact C.write (d := { d with board := d.board.mark o.call .answered }) h rfl rfl rfl

theorem leaves_invoke {cell : Bool} (h : C.Holds d rest) :
    C.Leaves rest (Run.invoke s d p cell) := by
  cases hcancelled : d.board.cancelled with
  | true =>
    rw [Run.invoke_of_cancelled hcancelled]
    exact leaves_settle h
  | false =>
    cases hprepare : p.prepare s.client d.board.results with
    | error f =>
      rw [Run.invoke_of_error hcancelled hprepare]
      exact leaves_settle (C.write h rfl rfl rfl)
    | ok made =>
      obtain ⟨expected, request⟩ := made
      obtain ⟨hsent, hanswered⟩ := C.send p request hcancelled h
      rw [Run.invoke_of_ok hcancelled hprepare]
      show C.Leaves rest (if _ then _ else _)
      split
      · exact leaves_complete (hanswered _)
      · exact leaves_of_alone rfl hsent

theorem leaves_takeCell {line : List Nat} (h : C.Holds d rest) :
    C.Leaves rest (Run.takeCell s d p line) :=
  leaves_invoke (C.write h rfl rfl rfl)

theorem leaves_request (h : C.Holds d rest) : C.Leaves rest (Run.request s d p) := by
  unfold Run.request
  split
  · exact leaves_receive h
  · exact leaves_takeCell h
  · exact leaves_of_alone rfl (C.write h rfl rfl rfl)
  · exact leaves_invoke h

theorem leaves_recheck (h : C.Holds d rest) : C.Leaves rest (Run.recheck s d p) := by
  unfold Run.recheck
  split
  · exact leaves_receive h
  · split
    · exact leaves_takeCell h
    · exact leaves_of_alone rfl h
  · exact leaves_of_alone rfl h

theorem leaves_pollCall {o : Ongoing} (h : C.Holds d rest) :
    C.Leaves rest (Run.pollCall s d o) := by
  unfold Run.pollCall
  split
  · exact leaves_settle (C.abandon o.call h)
  · next hlive =>
    split
    · exact leaves_complete (C.answer o.call (Bool.eq_false_iff.2 hlive) h)
    · exact leaves_of_alone rfl h

/-! ## Giving up -/

theorem setCell {id : Nat} {cell : Cell} (h : C.Holds d rest) : C.Holds (d.setCell id cell) rest :=
  C.wake _ (C.write h rfl rfl rfl)

/-- The tasks within an activity that is dropped are given up. -/
theorem drop : ∀ {d : Desk} {a : Activity}, C.Holds d (↑a.inner + rest) → C.Holds (d.drop a) rest
  | _, .finished _, h | _, .spawned _, h => C.fewer h (Multiset.zero_add rest).ge
  | d, .calling o, h => by
    have hmarked := C.abandon o.call (C.fewer h (Multiset.zero_add rest).ge)
    unfold Desk.drop
    split
    · exact setCell hmarked
    · exact hmarked
  | d, .waiting p, h => by
    have hd := C.fewer h (Multiset.zero_add rest).ge
    unfold Desk.drop Desk.leaveLine
    split
    · exact setCell hd
    · exact hd
  | _, .stepping _ _ _ current _, h => by
    unfold Desk.drop
    exact drop (a := current) h
  | _, .gathering _ _ _ _ _, h => C.giveUp h

/-! ## Beginning and going on -/

theorem leaves_afterStep {since : Nat} {progressed : Bool} {names : List String}
    {steps : List Plan} {next : Desk → Desk × Activity} {out : Desk × Activity}
    (h : C.Leaves rest out) (hnext : ∀ e, C.Holds e rest → C.Leaves rest (next e)) :
    C.Leaves rest (Run.afterStep since progressed names steps next out) := by
  obtain ⟨e, a⟩ := out
  cases a with
  | finished yield =>
    have he : C.Holds e rest := C.fewer h (Multiset.zero_add rest).ge
    cases yield with
    | panic message => exact h
    | results rs =>
      show C.Leaves rest (if _ then _ else _)
      split
      · exact h
      · have hpublished : C.Holds { e with board := e.board.publish rs } rest :=
          C.write he rfl rfl rfl
        cases firstFailure? rs with
        | some f => exact leaves_of_alone rfl hpublished
        | none => exact hnext _ hpublished
  | spawned | calling | waiting | stepping | gathering => exact h

theorem leaves_collect {since : Nat} {names : List String}
    {collected arrived : List ProducerResult} {branches : List (Nat × Activity)}
    (h : C.Holds d (↑(tasksInner branches) + rest)) :
    C.Leaves rest (Run.collect d since names collected arrived branches) := by
  unfold Run.collect
  show C.Leaves rest (if _ then _ else _)
  split
  · exact leaves_of_alone rfl (C.giveUp h)
  · exact h

mutual

theorem leaves_start : ∀ {d : Desk} {plan : Plan}, C.Holds d rest →
    C.Leaves rest (Run.start s d plan)
  | _, .call _, h => leaves_request h
  | _, .sequence _, h => leaves_startSteps h
  | d, .parallel branches, h => by
    by_cases hnone : Plan.allNames branches = []
    · unfold Run.start
      rw [if_pos (List.isEmpty_iff.2 hnone)]
      exact leaves_of_alone rfl h
    · rw [Discipline.start_parallel d hnone]
      exact leaves_collect (C.spawn branches h)
  | _, .stub _ _ (some _), h | _, .stub _ _ none, h => leaves_of_alone rfl h

theorem leaves_startSteps : ∀ {d : Desk} {progressed : Bool} {names : List String}
    {steps : List Plan}, C.Holds d rest →
    C.Leaves rest (Run.startSteps s d progressed names steps)
  | _, _, _, [], h => leaves_of_alone rfl h
  | _, _, _, _ :: _, h => by
    unfold Run.startSteps
    split
    · exact leaves_of_alone rfl h
    · exact leaves_afterStep (leaves_start h) fun _ => leaves_startSteps

end

theorem leaves_poll : ∀ {d : Desk} {a : Activity}, C.Holds d (↑a.inner + rest) →
    C.Leaves rest (Run.poll s d a)
  | _, .finished _, h => h
  | _, .spawned _, h => leaves_start (C.fewer h (Multiset.zero_add rest).ge)
  | _, .calling _, h => leaves_pollCall (C.fewer h (Multiset.zero_add rest).ge)
  | _, .waiting _, h => leaves_recheck (C.fewer h (Multiset.zero_add rest).ge)
  | _, .stepping _ _ _ current _, h => by
    unfold Run.poll
    split
    · exact leaves_of_alone rfl (drop (a := current) h)
    · exact leaves_afterStep (leaves_poll (a := current) h) fun _ => leaves_startSteps
  | _, .gathering _ _ _ _ _, h => leaves_collect h

/-! ## The turns of other tasks -/

/-- What a turn leaves of several tasks, next to others. -/
def LeavesTasks (C : Conduct s) (rest : Multiset Nat)
    (out : Desk × List ProducerResult × List (Nat × Activity)) : Prop :=
  C.Holds out.1 (↑(tasksInner out.2.2) + rest)

/-- The turn of one of several tasks, which then is over or is not. -/
theorem leavesTasks_poll {task : Nat} {a : Activity} {others : List (Nat × Activity)}
    (h : C.Leaves (task ::ₘ (↑(tasksInner others) + rest)) (Run.poll s d a)) :
    C.LeavesTasks rest (match Run.poll s d a with
      | (d, .finished yield) => (d, yield.contained a.names, others)
      | (d, a) => (d, [], (task, a) :: others)) := by
  obtain ⟨⟨e, out⟩, hpoll⟩ : ∃ out, Run.poll s d a = out := ⟨_, rfl⟩
  rw [hpoll] at h ⊢
  cases out with
  | finished yield =>
    apply C.fewer h
    exact (Multiset.le_cons_self _ _).trans (Multiset.le_add_left _ _)
  | spawned | calling | waiting | stepping | gathering =>
    unfold LeavesTasks
    rw [Run.coe_tasksInner]
    exact h

mutual

theorem leaves_visit : ∀ {d : Desk} {rest : Multiset Nat} (owner : Nat) {a : Activity},
    C.Holds d (↑a.inner + rest) → C.Leaves rest (Run.visit s d owner a)
  | _, _, _, .finished _, h | _, _, _, .spawned _, h | _, _, _, .calling _, h
  | _, _, _, .waiting _, h => h
  | _, _, owner, .stepping _ _ _ current _, h => leaves_visit owner (a := current) h
  | _, _, owner, .gathering _ _ _ _ _, h => by
    have hbranches := leaves_visitBranches h
    unfold Run.visit
    show C.Leaves _ (if _ then _ else _, _)
    split
    · exact hbranches
    · exact C.wake [owner] hbranches

theorem leaves_visitBranches : ∀ {d : Desk} {rest : Multiset Nat} {tasks : List (Nat × Activity)},
    C.Holds d (↑(tasksInner tasks) + rest) → C.LeavesTasks rest (Run.visitBranches s d tasks)
  | _, _, [], h => h
  | d, rest, (task, a) :: others, h => by
    rw [Run.coe_tasksInner] at h
    unfold Run.visitBranches
    split
    · exact leavesTasks_poll (leaves_poll h)
    · -- of the two, the one whose turn it is not goes into `rest`
      have hvisit : C.Holds _ _ := leaves_visit task h
      rw [← Multiset.add_cons, add_left_comm] at hvisit
      have hothers : C.Holds _ _ := leaves_visitBranches hvisit
      unfold LeavesTasks
      rw [Run.coe_tasksInner, ← Multiset.add_cons, add_left_comm]
      exact hothers

end

theorem holds_visitGivenUp : ∀ {d : Desk} {rest : Multiset Nat} {tasks : List (Nat × Activity)},
    C.Holds d (↑(tasksInner tasks) + rest) →
      C.Holds (Run.visitGivenUp s d tasks).1 (↑(tasksInner (Run.visitGivenUp s d tasks).2) + rest)
  | _, _, [], h => h
  | d, rest, (task, a) :: others, h => by
    rw [Run.coe_tasksInner] at h
    unfold Run.visitGivenUp
    split
    · exact drop (C.fewer h (Multiset.add_le_add_left (Multiset.le_cons_self _ _)))
    · have hvisit : C.Holds _ _ := leaves_visit task h
      rw [← Multiset.add_cons, add_left_comm] at hvisit
      have hothers : C.Holds _ _ := holds_visitGivenUp hvisit
      rw [Run.coe_tasksInner, ← Multiset.add_cons, add_left_comm]
      exact hothers

/-- The turn of a task other than the root: that of a branch within it, or within the tasks that were
given up. -/
theorem holds_others {root : Activity} {givenUp : List (Nat × Activity)}
    (h : C.Holds d (↑root.inner + (↑(tasksInner givenUp) + rest))) :
    C.Holds (Run.visitGivenUp s (Run.visit s d 0 root).1 givenUp).1
      (↑(Run.visit s d 0 root).2.inner +
        (↑(tasksInner (Run.visitGivenUp s (Run.visit s d 0 root).1 givenUp).2) + rest)) := by
  have hvisit : C.Holds _ _ := leaves_visit 0 h
  rw [add_left_comm] at hvisit ⊢
  exact holds_visitGivenUp hvisit

/-- What is kept whatever the numbers of the tasks are is kept by every turn of a task. -/
theorem board_take {P : Board → Prop} (hP : ∀ {d numbers}, C.Holds d numbers → P d.board) {w : Work}
    {n : Nat} (h : ∀ numbers, C.Holds (w.desk n) numbers) : P (w.take s (.task n)).board := by
  have htaken := w.taken s (.task n)
  generalize w.take s (.task n) = v at htaken ⊢
  cases htaken with
  | root =>
    rw [Work.afterRoot, Work.board_after]
    exact hP (leaves_poll (h (↑w.root.inner + 0)))
  | branch =>
    rw [Work.board_after]
    exact hP (holds_others (h (↑w.root.inner + (↑(tasksInner w.givenUp) + 0))))

end Conduct

end Gateway
