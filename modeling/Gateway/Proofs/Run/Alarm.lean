import Gateway.Proofs.Run.Row
import Gateway.Proofs.Run.Silence

/-!
# Gateway.Proofs.Run.Alarm — everyone hears of a cancellation

A cancellation wakes those who listen for it, and a root that is a parallel at work always listens.
When it has its turn it ends, and gives up its branches. Whoever is given up is woken, and ends in its
turn. So after a cancellation the row is not empty before everybody has ended, and no turn of theirs
is one that achieves nothing.

As tasks are known by their numbers, all this is about numbers that differ.

It is the root that has to be woken, and it is enough. Branches deep in the plan may wait in the line of
a cell, where they do not listen for a cancellation, and a call may never be answered. They need not
hear of it, because the root does, and gives up its branches with all that is in them. What is shown of
every task is therefore only that it is told when it is given up (`Alert`).

A turn that does not lower the weight of the work is dropped. So it has to be seen that the turns that
end the run are not of this kind, and for this the weight of what was given up counts as well
(`weight_givenUp`, `weight_root`).
-/

set_option autoImplicit false

namespace Gateway

open Activity (tasksInner tasksWeight)

namespace Activity

/-- A parallel that is at work, or anything that is over. -/
def gathers : Activity → Bool
  | .finished _ | .gathering .. => true
  | _ => false

@[simp] theorem gathers_visit (s : Setting) (d : Desk) (owner : Nat) (a : Activity) :
    (Run.visit s d owner a).2.gathers = a.gathers := by
  cases a <;> rfl

@[simp] theorem tasksInner_append (tasks tasks' : List (Nat × Activity)) :
    tasksInner (tasks ++ tasks') = tasksInner tasks ++ tasksInner tasks' := by
  induction tasks with
  | nil => rfl
  | cons task rest ih => simp [tasksInner, ih]

@[simp] theorem tasksWeight_append (tasks tasks' : List (Nat × Activity)) :
    tasksWeight (tasks ++ tasks') = tasksWeight tasks + tasksWeight tasks' := by
  induction tasks with
  | nil => simp [tasksWeight]
  | cons task rest ih =>
    simp only [List.cons_append, tasksWeight, ih]
    omega

/-- The numbers of tasks are among those of the tasks and all within them. -/
theorem sublist_tasksInner (tasks : List (Nat × Activity)) :
    (tasks.map Prod.fst).Sublist (tasksInner tasks) := by
  induction tasks with
  | nil => exact .slnil
  | cons task rest ih => exact (ih.trans (List.sublist_append_right _ _)).cons_cons _

end Activity

/-! ## What a turn tells -/

namespace Desk

/-- A task has told everyone concerned that the run was cancelled in its turn, which it was not
`before`, and whom it has given up. The numbers of all tasks differ. -/
structure Alarmed (task : Nat) (before : Board) (d : Desk) (numbers : Multiset Nat) : Prop where
  task : d.task = task
  numbered : Numbered d.tasks (↑(tasksInner d.givenUp) + numbers)
  woken : ∀ t ∈ d.givenUp, .wake t.1 ∈ d.notices
  told : d.board.cancelled = true → before.cancelled = true ∨ .cancelled ∈ d.notices

variable {task : Nat} {before : Board} {d : Desk} {numbers : Multiset Nat}

theorem Alarmed.board {b : Board} (h : d.Alarmed task before numbers)
    (hcancelled : b.cancelled = d.board.cancelled) :
    ({ d with board := b } : Desk).Alarmed task before numbers :=
  ⟨h.task, h.numbered, h.woken, fun hb => h.told (hcancelled.symm.trans hb)⟩

theorem Alarmed.wake (h : d.Alarmed task before numbers) (tasks : List Nat) :
    (d.wake tasks).Alarmed task before numbers where
  task := h.task
  numbered := h.numbered
  woken t ht := List.mem_append_left _ (h.woken t ht)
  told hb := (h.told hb).imp_right (List.mem_append_left _)

theorem Alarmed.spawn (h : d.Alarmed task before numbers) (plans : List Plan) :
    (d.spawn plans).1.Alarmed task before (↑(tasksInner (d.spawn plans).2) + numbers) := by
  refine Alarmed.wake (d := { d with tasks := d.tasks + plans.length }) ⟨h.task, ?_, h.woken, h.told⟩ _
  rw [add_left_comm]
  exact Run.numbered_spawn plans h.numbered

theorem Alarmed.giveUp {tasks : List (Nat × Activity)}
    (h : d.Alarmed task before (↑(tasksInner tasks) + numbers)) :
    (d.giveUp tasks).Alarmed task before numbers where
  task := h.task
  numbered := by
    show Numbered d.tasks (↑(tasksInner (d.givenUp ++ tasks)) + numbers)
    rw [Activity.tasksInner_append, ← Multiset.coe_add, Multiset.add_assoc]
    exact h.numbered
  woken t ht := by
    rcases List.mem_append.1 ht with ht | ht
    · exact List.mem_append_left _ (h.woken t ht)
    · exact List.mem_append_right _ (List.mem_map_of_mem (List.mem_map_of_mem ht))
  told hb := (h.told hb).imp_right (List.mem_append_left _)

theorem Alarmed.cancel (h : d.Alarmed task before numbers) :
    d.cancel.Alarmed task before numbers := by
  unfold Desk.cancel
  split
  · exact h
  · exact ⟨h.task, h.numbered, fun t ht => List.mem_append_left _ (h.woken t ht),
      fun _ => .inr (List.mem_append_right _ (List.mem_singleton_self _))⟩

end Desk

namespace Conduct

/-- Whatever a task does, everyone concerned is told. -/
def alarm (s : Setting) (task : Nat) (before : Board) : Conduct s where
  Holds := Desk.Alarmed task before
  fewer h hle := ⟨h.task, h.numbered.mono (Nat.le_refl _) (Multiset.add_le_add_left hle), h.woken,
    h.told⟩
  write h _ hcancelled _ := h.board hcancelled
  wake tasks h := h.wake tasks
  spawn plans h := h.spawn plans
  giveUp h := h.giveUp
  abandon _ h := h.board rfl
  answer _ _ h := h.board rfl
  send {d numbers} p request _ h := by
    have hsent : (Run.sent s d p request).Alarmed task before numbers := by
      show (if _ then Desk.cancel _ else _ : Desk).Alarmed task before numbers
      split
      · exact (h.board (b := (d.board.look p).enter p request) rfl).cancel
      · exact h.board rfl
    exact ⟨hsent, fun _ => hsent.board rfl⟩

/-- A turn is that of one task throughout. -/
def ofTask (s : Setting) (task : Nat) : Conduct s where
  Holds d _ := d.task = task
  fewer h _ := h
  write h _ _ _ := h
  wake _ h := h
  spawn _ h := h
  giveUp h := h
  abandon _ h := h
  answer _ _ h := h
  send {d} {_} p request _ h := by
    have hsent : (Run.sent s d p request).task = task := by
      show (if _ then Desk.cancel _ else _ : Desk).task = task
      split
      · rw [Desk.task_cancel]
        exact h
      · exact h
    exact ⟨hsent, fun _ => hsent⟩

end Conduct

namespace Run

variable {s : Setting} {d : Desk}

@[simp] theorem task_visit (owner : Nat) (a : Activity) :
    (visit s d owner a).1.task = d.task := by
  have hvisit : (Conduct.ofTask s d.task).Leaves 0 (visit s d owner a) :=
    Conduct.leaves_visit owner rfl
  exact hvisit

/-! ## What ends in a turn -/

theorem collect_of_cancelled {since : Nat} {names : List String}
    {collected arrived : List ProducerResult} {branches : List (Nat × Activity)}
    (h : d.board.cancelled = true) :
    collect d since names collected arrived branches =
      (d.giveUp branches, .finished (.results (completedWith names
        ((collected ++ arrived).take names.length)))) := by
  unfold collect
  simp [h]

theorem gathers_collect (d : Desk) (since : Nat) (names : List String)
    (collected arrived : List ProducerResult) (branches : List (Nat × Activity)) :
    (collect d since names collected arrived branches).2.gathers = true := by
  unfold collect
  show (if _ then _ else _ : Desk × Activity).2.gathers = true
  split <;> rfl

theorem gathers_poll {a : Activity} (h : a.gathers = true) : (poll s d a).2.gathers = true := by
  cases a with
  | finished yield => rfl
  | gathering => exact gathers_collect ..
  | spawned | calling | waiting | stepping => cases h

/-- A parallel ends in its first turn after a cancellation. -/
theorem isFinished_poll {a : Activity} (h : a.gathers = true) (hcancelled : d.board.cancelled = true) :
    (poll s d a).2.isFinished = true := by
  cases a with
  | finished yield => rfl
  | gathering =>
    unfold poll
    rw [collect_of_cancelled hcancelled]
    rfl
  | spawned | calling | waiting | stepping => cases h

/-- A parallel that is begun is at work or over, and it is over if the run was cancelled before. -/
theorem start_gathers (d : Desk) (branches : List Plan) :
    (start s d (.parallel branches)).2.gathers = true ∧
      (d.board.cancelled = true → (start s d (.parallel branches)).2.isFinished = true) := by
  by_cases hnone : Plan.allNames branches = []
  · unfold start
    rw [if_pos (List.isEmpty_iff.2 hnone)]
    exact ⟨rfl, fun _ => rfl⟩
  · rw [Discipline.start_parallel d hnone]
    refine ⟨gathers_collect .., fun hcancelled => ?_⟩
    have hspawned : (d.spawn branches).1.board.cancelled = true := hcancelled
    rw [collect_of_cancelled hspawned]
    rfl

/-- What is dropped leaves no more to do than it had. -/
theorem tasksWeight_drop : ∀ {d : Desk} (a : Activity),
    tasksWeight (d.drop a).givenUp ≤ tasksWeight d.givenUp + a.weight
  | _, .finished _ | _, .spawned _ => Nat.le_add_right _ _
  | d, .calling o => by
    have hsame : (d.drop (.calling o)).givenUp = d.givenUp := by
      unfold Desk.drop
      split <;> rfl
    rw [hsame]
    exact Nat.le_add_right _ _
  | d, .waiting p => by
    have hsame : (d.drop (.waiting p)).givenUp = d.givenUp := by
      unfold Desk.drop Desk.leaveLine
      split <;> rfl
    rw [hsame]
    exact Nat.le_add_right _ _
  | d, .stepping since progressed names current rest => by
    have hcurrent := tasksWeight_drop (d := d) current
    have hweight : (Activity.stepping since progressed names current rest).weight =
        1 + current.weight + Plan.stepsWeight rest := rfl
    unfold Desk.drop
    omega
  | d, .gathering since names collected arrived branches => by
    have hgiven : (d.drop (.gathering since names collected arrived branches)).givenUp =
        d.givenUp ++ branches := rfl
    have hweight : (Activity.gathering since names collected arrived branches).weight =
        1 + (if arrived.isEmpty then 0 else 1) + tasksWeight branches := rfl
    rw [hgiven, Activity.tasksWeight_append, hweight]
    omega

/-- Of the tasks that were given up the one whose turn it is ends. -/
theorem numbers_visitGivenUp : ∀ {d : Desk} (tasks : List (Nat × Activity)),
    (visitGivenUp s d tasks).2.map Prod.fst = (tasks.map Prod.fst).erase d.task
  | _, [] => rfl
  | d, (task, a) :: rest => by
    unfold visitGivenUp
    split
    · next heq =>
      rw [List.map_cons, ← heq, List.erase_cons_head]
    · next hne =>
      have hrest := numbers_visitGivenUp (d := (visit s d task a).1) rest
      rw [task_visit] at hrest
      simp only [List.map_cons]
      rw [List.erase_cons_tail (by simpa using hne), hrest]

/-- Its end leaves less to do. -/
theorem weight_visitGivenUp : ∀ {d : Desk} {tasks : List (Nat × Activity)},
    (tasksInner tasks).Nodup → d.task ∈ tasks.map Prod.fst →
      tasksWeight (visitGivenUp s d tasks).2 + tasksWeight (visitGivenUp s d tasks).1.givenUp <
        tasksWeight tasks + tasksWeight d.givenUp
  | d, (task, a) :: rest, hnodup, hmem => by
    have hweight : tasksWeight ((task, a) :: rest) = 1 + a.weight + tasksWeight rest := rfl
    unfold visitGivenUp
    split
    · have hdrop := tasksWeight_drop (d := d) a
      simp only
      omega
    · next hne =>
      have hrest : d.task ∈ rest.map Prod.fst :=
        (List.mem_cons.1 hmem).resolve_left (Ne.symm hne)
      obtain ⟨-, hnodup⟩ := List.nodup_cons.1 hnodup
      obtain ⟨-, hnodup', hapart⟩ := List.nodup_append.1 hnodup
      have hin := (Activity.sublist_tasksInner rest).subset hrest
      -- the turn is not one within `a`, which is left as it was
      obtain ⟨notices, hvisit⟩ := visit_of_notMem (s := s) task
        fun ha : d.task ∈ a.inner => hapart _ ha _ hin rfl
      have ih := weight_visitGivenUp (d := { d with notices }) hnodup' hrest
      rw [hvisit]
      simp only [tasksWeight] at ih ⊢
      omega

end Run

/-! ## Who is in the row -/

namespace Work

/-- Whoever has to end because of a cancellation has been told. -/
structure Alert (told : Nat → Prop) (w : Work) : Prop where
  numbered : Numbered w.tasks (↑w.root.inner + (↑(tasksInner w.givenUp) + {0}))
  gathers : w.root.gathers = true
  root : w.board.cancelled = true → w.root.isFinished = false → told 0
  givenUp : ∀ t ∈ w.givenUp, told t.1

/-- Everyone who has been told stands in the row. -/
def OnAlert (w : Work) : Prop := w.Alert fun n => .task n ∈ w.ready

variable {s : Setting} {J : Discipline s} {w v : Work} {n : Nat} {told : Nat → Prop}

theorem Alert.nodup (h : w.Alert told) :
    (w.root.inner ++ (tasksInner w.givenUp ++ [0])).Nodup := by
  have hnodup := h.numbered.1
  rwa [← Multiset.coe_singleton, Multiset.coe_add, Multiset.coe_add, Multiset.coe_nodup] at hnodup

/-- The tasks that were given up are neither the root nor within it. -/
theorem Alert.apart (h : w.Alert told) {t : Nat × Activity} (ht : t ∈ w.givenUp) :
    t.1 ≠ 0 ∧ t.1 ∉ w.root.inner := by
  have hin := (Activity.sublist_tasksInner _).subset (List.mem_map_of_mem ht)
  obtain ⟨-, hgiven, hroot⟩ := List.nodup_append.1 h.nodup
  obtain ⟨-, -, hzero⟩ := List.nodup_append.1 hgiven
  exact ⟨hzero _ hin 0 (List.mem_singleton_self 0),
    fun hr => hroot _ hr _ (List.mem_append_left _ hin) rfl⟩

theorem mem_listeners (hgathers : w.root.gathers = true) (hroot : w.root.isFinished = false) :
    0 ∈ w.listeners := by
  obtain ⟨since, hsince⟩ : ∃ since, w.root.since? = some since := by
    cases hw : w.root with
    | gathering since => exact ⟨since, rfl⟩
    | finished => rw [hw] at hroot; cases hroot
    | spawned | calling | waiting | stepping => rw [hw] at hgathers; cases hgathers
  refine List.mem_map.2 ⟨(since, 0), List.mem_mergeSort.2 ?_, rfl⟩
  simp [Activity.tasksListeners, hsince]

/-- After a turn in which everyone concerned was told the row is as it should be. -/
theorem alert_after {d : Desk} {root : Activity} {givenUp : List (Nat × Activity)}
    (h : d.Alarmed n w.board (↑root.inner + (↑(tasksInner givenUp) + {0})))
    (hgathers : root.gathers = true)
    (hroot : w.board.cancelled = true → root.isFinished = false → .task 0 ∈ w.ready)
    (hgiven : ∀ t ∈ givenUp, .task t.1 ∈ w.ready) : (w.after d root givenUp).OnAlert := by
  have hstay : ∀ x ∈ w.ready, x ∈ (w.after d root givenUp).ready := fun x hx => mem_after (.inl hx)
  have hwake : ∀ t ∈ d.givenUp, .task t.1 ∈ (w.after d root givenUp).ready := fun t ht =>
    mem_after (.inr ⟨t.1, h.woken t ht, rfl⟩)
  have hcancelled : .cancelled ∈ d.notices → root.isFinished = false →
      .task 0 ∈ (w.after d root givenUp).ready := fun hnotice hworking =>
    mem_passOn (.inr ⟨0, List.mem_flatMap.2 ⟨.cancelled, hnotice, mem_listeners hgathers hworking⟩,
      rfl⟩)
  obtain ⟨ready, hafter⟩ := after_eq w d root givenUp
  unfold OnAlert
  rw [hafter] at hstay hwake hcancelled ⊢
  refine ⟨?_, hgathers, fun hcut hworking => ?_, fun t ht => ?_⟩
  · show Numbered d.tasks (↑root.inner + (↑(tasksInner (givenUp ++ d.givenUp)) + {0}))
    rw [Activity.tasksInner_append, ← Multiset.coe_add,
      Multiset.add_comm (↑(tasksInner givenUp) : Multiset Nat), Multiset.add_assoc, add_left_comm]
    exact h.numbered
  · rcases h.told hcut with hbefore | hnotice
    · exact hstay _ (hroot hbefore hworking)
    · exact hcancelled hnotice hworking
  · rcases List.mem_append.1 ht with ht | ht
    · exact hstay _ (hgiven t ht)
    · exact hwake t ht

/-- A parallel that is begun is woken if the run is cancelled. -/
theorem alert_opening (b : Board) (branches : List Plan) :
    (opening s b (.parallel branches)).OnAlert := by
  have hdesk : ((ofBoard s b).desk 0).Alarmed 0 b
      (↑(tasksInner (ofBoard s b).givenUp) + {0}) := by
    refine ⟨rfl, ⟨Multiset.nodup_singleton 0, fun n hn => ?_⟩, fun t ht => ?_, .inl⟩
    · rw [Multiset.mem_singleton.1 hn]
      exact Nat.one_pos
    · exact absurd ht List.not_mem_nil
  have hstart : (Conduct.alarm s 0 b).Leaves (↑(tasksInner (ofBoard s b).givenUp) + {0})
    (Run.start s ((ofBoard s b).desk 0) (.parallel branches)) := Conduct.leaves_start hdesk
  obtain ⟨hgathers, hfinished⟩ := Run.start_gathers (s := s) ((ofBoard s b).desk 0) branches
  unfold opening begin
  generalize Run.start s ((ofBoard s b).desk 0) (.parallel branches) = out at *
  refine alert_after hstart hgathers (fun hcancelled hworking => ?_) fun t ht => ?_
  · exact absurd (hfinished hcancelled) (ne_true_of_eq_false hworking)
  · exact absurd ht List.not_mem_nil

/-- The cancellation from outside wakes the root. -/
theorem OnAlert.cancellation (h : w.OnAlert) : (w.take s .cancellation).OnAlert := by
  show Work.OnAlert (if _ then _ else w)
  split
  · have hmem : ∀ x, x ∈ w.ready ∨ (∃ n ∈ w.listeners, x = .task n) →
        x ∈ ({ w with board := w.board.cancel }.joinAll w.listeners).ready := fun x hx =>
      mem_joinAll (w := { w with board := w.board.cancel }) hx
    obtain ⟨ready, hjoin⟩ := joinAll_eq { w with board := w.board.cancel } w.listeners
    unfold OnAlert
    rw [hjoin] at hmem ⊢
    refine ⟨h.numbered, h.gathers, fun _ hworking => ?_, fun t ht => hmem _ (.inl (h.givenUp t ht))⟩
    exact hmem _ (.inr ⟨0, mem_listeners h.gathers hworking, rfl⟩)
  · exact h

theorem Alert.desk (h : w.Alert told) (n : Nat) :
    (w.desk n).Alarmed n w.board (↑w.root.inner + (↑(tasksInner w.givenUp) + {0})) :=
  ⟨rfl, h.numbered.mono (Nat.le_refl _) (Multiset.zero_add _).le,
    fun _ ht => absurd ht List.not_mem_nil, .inl⟩

/-- The task whose turn it is need not have been told. -/
theorem Alert.task (h : w.Alert fun m => .task m ∈ w.ready ∨ m = n) :
    (w.take s (.task n)).OnAlert := by
  have htaken := w.taken s (.task n)
  generalize w.take s (.task n) = v at htaken ⊢
  cases htaken with
  | root =>
    -- the root ends in its turn if it had to
    refine alert_after (Conduct.leaves_poll (C := .alarm s 0 w.board) (h.desk 0))
      (Run.gathers_poll h.gathers) ?_ ?_
    · intro hcancelled hworking
      have hfinished := Run.isFinished_poll (s := s) (d := w.desk 0) h.gathers hcancelled
      exact absurd hfinished (ne_true_of_eq_false hworking)
    · intro t ht
      exact (h.givenUp t ht).resolve_right (h.apart ht).1
  | branch hne =>
    refine alert_after (Conduct.holds_others (C := .alarm s n w.board) (h.desk n)) ?_ ?_ ?_
    · rw [Activity.gathers_visit]
      exact h.gathers
    · intro hcancelled hworking
      rw [Run.isFinished_visit] at hworking
      exact (h.root hcancelled hworking).resolve_right (Ne.symm hne)
    · intro t ht
      -- whoever is still given up is not the task whose turn it was
      have hmem := List.mem_map_of_mem (f := Prod.fst) ht
      rw [Run.numbers_visitGivenUp, Run.task_visit] at hmem
      obtain ⟨-, hgiven, -⟩ := List.nodup_append.1 h.nodup
      have hnodup := (List.nodup_append.1 hgiven).1.sublist (Activity.sublist_tasksInner _)
      obtain ⟨hother, hin⟩ := hnodup.mem_erase_iff.1 hmem
      obtain ⟨t', ht', heq⟩ := List.mem_map.1 hin
      rw [← heq] at hother ⊢
      exact (h.givenUp t' ht').resolve_right hother

/-! ## Turns in which someone ends -/

theorem weight_after (w : Work) (d : Desk) (root : Activity) (givenUp : List (Nat × Activity)) :
    (w.after d root givenUp).weight = root.weight + (tasksWeight givenUp + tasksWeight d.givenUp) +
      (if d.board.cancelled then 0 else 1) := by
  obtain ⟨ready, hafter⟩ := after_eq w d root givenUp
  rw [hafter, weight, Activity.tasksWeight_append]

theorem weight_of_cancelled (h : w.board.cancelled = true) :
    w.weight = w.root.weight + tasksWeight w.givenUp := by
  rw [weight, if_pos h]
  rfl

/-- After a cancellation the turn of a root that is at work achieves something. -/
theorem Alert.weight_root (h : w.Alert told) (hcancelled : w.board.cancelled = true)
    (hworking : w.root.isFinished = false) : (w.take s .root).weight < w.weight := by
  have hgathers := h.gathers
  have htake : w.take s .root = w.afterRoot (Run.poll s (w.desk 0) w.root) := rfl
  have hdesk : (w.desk 0).board.cancelled = true := hcancelled
  rw [htake, weight_of_cancelled hcancelled]
  cases hroot : w.root with
  | finished yield => rw [hroot] at hworking; cases hworking
  | spawned | calling | waiting | stepping => rw [hroot] at hgathers; cases hgathers
  | gathering since names collected arrived branches =>
    have hweight : (Activity.gathering since names collected arrived branches).weight =
        1 + (if arrived.isEmpty then 0 else 1) + tasksWeight branches := rfl
    unfold Run.poll
    rw [Run.collect_of_cancelled hdesk, afterRoot, weight_after, hweight]
    have hafter : ((w.desk 0).giveUp branches).board.cancelled = true := hcancelled
    have hgiven : tasksWeight ((w.desk 0).giveUp branches).givenUp = tasksWeight branches := rfl
    rw [if_pos hafter, hgiven, Activity.weight]
    omega

/-- So does that of a task which was given up. -/
theorem Alert.weight_givenUp (h : w.Alert told) (hcancelled : w.board.cancelled = true)
    {t : Nat × Activity} (ht : t ∈ w.givenUp) : (w.take s (.task t.1)).weight < w.weight := by
  obtain ⟨hpos, hnone⟩ := h.apart ht
  obtain ⟨-, hgiven, -⟩ := List.nodup_append.1 h.nodup
  obtain ⟨hnodup, -, -⟩ := List.nodup_append.1 hgiven
  -- the number of the task stands for it alone, so a look at the root finds nobody of that number
  obtain ⟨e, htask, hempty, hvisit⟩ : ∃ e : Desk, e.task = t.1 ∧ e.givenUp = [] ∧
      Run.visit s (w.desk t.1) 0 w.root = (e, w.root) := by
    obtain ⟨notices, hvisit⟩ := Run.visit_of_notMem (s := s) (d := w.desk t.1) 0 hnone
    exact ⟨_, rfl, rfl, hvisit⟩
  have hmem : e.task ∈ w.givenUp.map Prod.fst := htask.symm ▸ List.mem_map_of_mem ht
  have hlt := Run.weight_visitGivenUp (s := s) hnodup hmem
  have hnothing : tasksWeight e.givenUp = 0 := by
    rw [hempty]
    rfl
  obtain ⟨hafter, -, -⟩ := silent_take (s := s) hcancelled (.task t.1)
  rw [take_branch hpos] at hafter ⊢
  rw [board_after] at hafter
  rw [weight_after, if_pos hafter, weight_of_cancelled hcancelled, hvisit]
  simp only
  omega

/-! ## Steps -/

/-- A task whose turn achieves nothing did not have to end. -/
theorem Alert.still (hkept : J.Kept w) (h : w.Alert fun m => .task m ∈ w.ready ∨ m = n)
    (hweight : w.weight ≤ (w.take s (.task n)).weight) : w.OnAlert := by
  refine ⟨h.numbered, h.gathers, fun hcancelled hworking => ?_, fun t ht => ?_⟩
  · refine (h.root hcancelled hworking).resolve_right fun heq => ?_
    subst heq
    exact absurd (h.weight_root hcancelled hworking) (Nat.not_lt.2 hweight)
  · refine (h.givenUp t ht).resolve_right fun heq => ?_
    subst heq
    have hcancelled := hkept.cancelled (List.ne_nil_of_mem ht)
    exact absurd (h.weight_givenUp hcancelled ht) (Nat.not_lt.2 hweight)

theorem OnAlert.step (hkept : J.Kept w) (h : w.OnAlert) (hstep : w.step? s = some v) :
    v.OnAlert := by
  -- while a task has its turn, the row is that of the others
  have hbut : ∀ {n : Nat} {ready : List Turn} {burst : Nat},
      (∀ x ∈ w.ready, x = .task n ∨ x ∈ ready) →
        Alert (fun m => .task m ∈ ready ∨ m = n) { w with ready, burst } := fun hrow =>
    ⟨h.numbered, h.gathers,
      fun hcancelled hworking => (hrow _ (h.root hcancelled hworking)).symm.imp_right Turn.task.inj,
      fun t ht => (hrow _ (h.givenUp t ht)).symm.imp_right Turn.task.inj⟩
  have hall : ∀ {ready : List Turn} {burst : Nat},
      (∀ x ∈ w.ready, x = .cancellation ∨ x ∈ ready) → OnAlert { w with ready, burst } :=
    fun hrow => ⟨h.numbered, h.gathers,
      fun hcancelled hworking => (hrow _ (h.root hcancelled hworking)).resolve_left (by simp),
      fun t ht => (hrow _ (h.givenUp t ht)).resolve_left (by simp)⟩
  cases stepped hstep with
  | @took turn ready burst hrow =>
    cases turn with
    | cancellation => exact (hall hrow).cancellation
    | task n => exact (hbut hrow).task
  | @passed turn ready burst hrow hweight =>
    cases turn with
    | cancellation => exact hall hrow
    | task n => exact (hbut hrow).still (Discipline.kept_of_row hkept) hweight

/-- When nobody is ready everyone has ended who had to. -/
theorem OnAlert.ended (h : w.OnAlert) (hstep : w.step? s = none) :
    w.givenUp = [] ∧ (w.board.cancelled = true → w.root.isFinished = true) := by
  have hready := ready_of_step? hstep
  have hnone : ∀ m, ¬ .task m ∈ w.ready := fun m hm => by
    rw [hready] at hm
    exact List.not_mem_nil hm
  constructor
  · exact List.eq_nil_iff_forall_not_mem.2 fun t ht => hnone _ (h.givenUp t ht)
  · intro hcancelled
    by_contra hworking
    exact hnone 0 (h.root hcancelled (Bool.eq_false_iff.2 hworking))

theorem OnAlert.advance (h : w.OnAlert) (hstep : w.step? s = none)
    (hlive : w.board.cancelled = false) (time : Nat) : (w.advance s time).OnAlert := by
  refine ⟨h.numbered, h.gathers, fun hcancelled => ?_, fun t ht => ?_⟩
  · exact absurd hcancelled (ne_true_of_eq_false hlive)
  · have hnone : t ∈ w.givenUp := ht
    rw [(h.ended hstep).1] at hnone
    exact absurd hnone List.not_mem_nil

end Work

end Gateway
