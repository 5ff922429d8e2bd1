import Gateway.Proofs.Run.Growth
import Gateway.Run.Work
import Mathlib.Algebra.Order.Group.Multiset

/-!
# Gateway.Proofs.Run.Wakes — nobody waits for nothing

A task that has something to do was told of it. Whoever waits for the result of a call stands in the
line of the cell as long as the call is under way, and is told when the result is there; a parallel is
told of every result of a branch; and a branch that is made is told to begin. So nothing but the time
is waited for once everybody has done what they were told to do.

What is proved here is about single turns, of a run in which no call is given up. The numbers of the
tasks differ, so that a turn is that of one task only.

`Heard` says of an activity why it may wait, and goes down to the tasks within it. The reasons are
stated with a predicate of those who have been told something, not with a list of notices, so that it
can be used for the notices on a desk, for the row, and in the end, when nobody is left in the row, for
nobody at all. What is left of the reasons then is that a call is not due or that one stands in a line.

A turn changes the reasons of others. Their cell is settled, or one of them is made an offer, and then
they have to have been told. `Onward` is what one desk owes to the tasks that wait beside it: whoever
stood in a line still does, or has a notice. It is transitive, and each of the functions of a turn is
compared with it once.
-/

set_option autoImplicit false

namespace Gateway

/-- The backends answer every call in the end, and leave it to others to cancel a run. -/
structure Setting.Answering (s : Setting) : Prop where
  delayed : ∀ p n request, (s.backends p n request).delay.isSome
  steady : ∀ p n request, (s.backends p n request).cancels = false

/-- The run is not cancelled, and no call is given up. -/
structure Board.Calm (b : Board) : Prop where
  live : b.cancelled = false
  kept : ∀ id task line, b.cells id ≠ some (.offered task line)

namespace Activity

theorem isFinished_eq_false {a : Activity} (h : ∀ yield, a = .finished yield → False) :
    a.isFinished = false := by
  cases a with
  | finished yield => exact (h yield rfl).elim
  | _ => rfl

theorem exists_finished {a : Activity} (h : a.isFinished = true) : ∃ yield, a = .finished yield := by
  cases a with
  | finished yield => exact ⟨yield, rfl⟩
  | _ => cases h

mutual

/-- The numbers of the tasks within an activity. -/
def inner : Activity → List Nat
  | .stepping _ _ _ current _ => inner current
  | .gathering _ _ _ _ branches => tasksInner branches
  | _ => []

/-- The numbers of several tasks, and of those within them. -/
def tasksInner : List (Nat × Activity) → List Nat
  | [] => []
  | (task, a) :: rest => task :: (inner a ++ tasksInner rest)

end

mutual

/-- Every task within an activity of a task, and that task, has been told if it has something to
do. -/
def Heard (b : Board) (told : Nat → Prop) (task : Nat) : Activity → Prop
  | .finished _ => True
  | .spawned _ => told task
  | .calling o => o.task = task ∧ (told task ∨ o.due.any (· ≤ b.now) = false)
  | .waiting p => (∃ line, b.cells p.id = some (.taken line) ∧ task ∈ line) ∨
      told task ∧ ∃ r, b.cells p.id = some (.settled r)
  | .stepping _ _ _ current _ => current.isFinished = false ∧ Heard b told task current
  | .gathering _ _ _ arrived branches =>
    (told task ∨ arrived = [] ∧ branches ≠ []) ∧ TasksHeard b told branches

/-- So it is with several tasks, none of which is finished. -/
def TasksHeard (b : Board) (told : Nat → Prop) : List (Nat × Activity) → Prop
  | [] => True
  | (task, a) :: rest => (a.isFinished = false ∧ Heard b told task a) ∧ TasksHeard b told rest

end

variable {b : Board} {told told' : Nat → Prop}

mutual

/-- Only the tasks within an activity need to be told. -/
theorem Heard.congr {task : Nat} : ∀ {a : Activity}, (∀ n ∈ task :: a.inner, told n → told' n) →
    Heard b told task a → Heard b told' task a
  | .finished _, _, _ => trivial
  | .spawned _, htold, h => htold task List.mem_cons_self h
  | .calling _, htold, h => ⟨h.1, h.2.imp_left (htold task List.mem_cons_self)⟩
  | .waiting _, htold, h => h.imp_right fun hsettled =>
      ⟨htold task List.mem_cons_self hsettled.1, hsettled.2⟩
  | .stepping _ _ _ current _, htold, h => ⟨h.1, Heard.congr (a := current) htold h.2⟩
  | .gathering _ _ _ _ _, htold, h =>
    ⟨h.1.imp_left (htold task List.mem_cons_self), TasksHeard.congr
      (fun n hn => htold n (List.mem_cons_of_mem task hn)) h.2⟩

theorem TasksHeard.congr : ∀ {tasks : List (Nat × Activity)},
    (∀ n ∈ tasksInner tasks, told n → told' n) → TasksHeard b told tasks →
      TasksHeard b told' tasks
  | [], _, _ => trivial
  | (task, a) :: rest, htold, h => by
    refine ⟨⟨h.1.1, h.1.2.congr fun n hn => htold n ?_⟩, h.2.congr fun n hn => htold n ?_⟩
    · exact (List.cons_append .. ▸ List.mem_append_left (tasksInner rest) hn :)
    · exact List.mem_cons_of_mem task (List.mem_append_right a.inner hn)

end

/-- Of the tasks within an activity none need be told of a turn that is not theirs. -/
theorem Heard.drop {task other : Nat} {a : Activity} (hother : other ∉ task :: a.inner)
    (h : Heard b (fun n => told n ∨ n = other) task a) : Heard b told task a :=
  h.congr fun _ hn htold => htold.resolve_right fun heq => hother (heq ▸ hn)

theorem TasksHeard.drop {other : Nat} {tasks : List (Nat × Activity)}
    (hother : other ∉ tasksInner tasks)
    (h : TasksHeard b (fun n => told n ∨ n = other) tasks) : TasksHeard b told tasks :=
  h.congr fun _ hn htold => htold.resolve_right fun heq => hother (heq ▸ hn)

end Activity

open Activity (tasksInner Heard TasksHeard)

/-- The numbers of tasks, all of which differ and have been given out. -/
def Numbered (tasks : Nat) (numbers : Multiset Nat) : Prop :=
  numbers.Nodup ∧ ∀ n ∈ numbers, n < tasks

theorem Numbered.mono {tasks tasks' : Nat} {numbers numbers' : Multiset Nat}
    (h : Numbered tasks numbers) (hle : tasks ≤ tasks') (hsub : numbers' ≤ numbers) :
    Numbered tasks' numbers' :=
  ⟨Multiset.nodup_of_le hsub h.1, fun n hn =>
    Nat.lt_of_lt_of_le (h.2 n (Multiset.mem_of_le hsub hn)) hle⟩

namespace Desk

/-- What a task was told before or is told now. -/
def Told (d : Desk) (told : Nat → Prop) (n : Nat) : Prop := told n ∨ .wake n ∈ d.notices

theorem Told.drop {d : Desk} {told : Nat → Prop} {n other : Nat}
    (h : d.Told (fun n => told n ∨ n = other) n) (hne : n ≠ other) : d.Told told n :=
  h.imp_left (Or.resolve_right · hne)

theorem tasksHeard_drop {d : Desk} {told : Nat → Prop} {b : Board} {other : Nat}
    {tasks : List (Nat × Activity)} (hother : other ∉ tasksInner tasks)
    (h : TasksHeard b (d.Told fun n => told n ∨ n = other) tasks) :
    TasksHeard b (d.Told told) tasks :=
  (h.congr fun _ _ => or_right_comm.1).drop hother

/-- `e` is `d` after the task has gone on, in a run that goes on. Who stood in a line for a cell still
does, or the cell is settled and everyone in the line is told. -/
structure Onward (d e : Desk) : Prop where
  calm : e.board.Calm
  now : e.board.now = d.board.now
  task : e.task = d.task
  tasks : d.tasks ≤ e.tasks
  notices : d.notices ⊆ e.notices
  taken : ∀ {id : Nat} {line : List Nat}, d.board.cells id = some (.taken line) →
    (∃ line', e.board.cells id = some (.taken line') ∧ line ⊆ line') ∨
      (∃ r, e.board.cells id = some (.settled r)) ∧ ∀ n ∈ line, .wake n ∈ e.notices
  settled : ∀ {id : Nat} {r : ProducerResult}, d.board.cells id = some (.settled r) →
    ∃ r, e.board.cells id = some (.settled r)

namespace Onward

variable {d e f : Desk} {told : Nat → Prop}

theorem trans (h : d.Onward e) (h' : e.Onward f) : d.Onward f where
  calm := h'.calm
  now := h'.now.trans h.now
  task := h'.task.trans h.task
  tasks := Nat.le_trans h.tasks h'.tasks
  notices := List.Subset.trans h.notices h'.notices
  taken hd := by
    rcases h.taken hd with ⟨line', he, hline⟩ | ⟨⟨r, he⟩, htold⟩
    · rcases h'.taken he with ⟨line'', hf, hline'⟩ | ⟨hf, htold⟩
      · exact .inl ⟨line'', hf, List.Subset.trans hline hline'⟩
      · exact .inr ⟨hf, fun n hn => htold n (hline hn)⟩
    · exact .inr ⟨h'.settled he, fun n hn => h'.notices (htold n hn)⟩
  settled hd := by
    obtain ⟨r, he⟩ := h.settled hd
    exact h'.settled he

theorem of_cells (hcalm : d.board.Calm) (hcells : e.board.cells = d.board.cells)
    (hlive : e.board.cancelled = d.board.cancelled) (hnow : e.board.now = d.board.now)
    (htask : e.task = d.task) (htasks : d.tasks ≤ e.tasks) (hnotices : d.notices ⊆ e.notices) :
    d.Onward e where
  calm := ⟨hlive.trans hcalm.live, hcells ▸ hcalm.kept⟩
  now := hnow
  task := htask
  tasks := htasks
  notices := hnotices
  taken hd := .inl ⟨_, hcells ▸ hd, List.Subset.refl _⟩
  settled hd := ⟨_, hcells ▸ hd⟩

theorem refl (hcalm : d.board.Calm) : d.Onward d :=
  of_cells hcalm rfl rfl rfl rfl (Nat.le_refl _) (List.Subset.refl _)

theorem mono (h : d.Onward e) {n : Nat} (hn : d.Told told n) : e.Told told n :=
  hn.imp_right fun hwake => h.notices hwake

end Onward

mutual

/-- Who was told of everything there is to do is told of everything after others have gone on. -/
theorem Onward.heard {d e : Desk} {told : Nat → Prop} (h : d.Onward e) {task : Nat} :
    ∀ {a : Activity}, Heard d.board (d.Told told) task a → Heard e.board (e.Told told) task a
  | .finished _, _ => trivial
  | .spawned _, ha => h.mono ha
  | .calling _, ha => ⟨ha.1, ha.2.imp h.mono fun hdue => h.now ▸ hdue⟩
  | .waiting p, ha => by
    -- who stood in the line stands there still, or the cell was settled and the line told
    rcases ha with ⟨line, hline, htask⟩ | ⟨htold, r, hr⟩
    · rcases h.taken hline with ⟨line', hline', hsub⟩ | ⟨hr, hwake⟩
      · exact .inl ⟨line', hline', hsub htask⟩
      · exact .inr ⟨.inr (hwake task htask), hr⟩
    · exact .inr ⟨h.mono htold, h.settled hr⟩
  | .stepping _ _ _ current _, ha => ⟨ha.1, h.heard (a := current) ha.2⟩
  | .gathering _ _ _ _ _, ha => ⟨ha.1.imp_left h.mono, h.tasksHeard ha.2⟩

theorem Onward.tasksHeard {d e : Desk} {told : Nat → Prop} (h : d.Onward e) :
    ∀ {tasks : List (Nat × Activity)}, TasksHeard d.board (d.Told told) tasks →
      TasksHeard e.board (e.Told told) tasks
  | [], _ => trivial
  | (_, _) :: _, ha => ⟨⟨ha.1.1, h.heard ha.1.2⟩, h.tasksHeard ha.2⟩

end

/-- What a task leaves that began with the desk `d`. The numbers in `rest` are those of other tasks. -/
structure Heeds (told : Nat → Prop) (rest : Multiset Nat) (d : Desk) (task : Nat)
    (out : Desk × Activity) : Prop where
  onward : d.Onward out.1
  numbered : Numbered out.1.tasks (↑out.2.inner + rest)
  heard : Heard out.1.board (out.1.Told told) task out.2

end Desk

open Desk (Heeds)

namespace Run

variable {s : Setting} {told : Nat → Prop} {rest : Multiset Nat} {d e : Desk} {task : Nat}
  {out : Desk × Activity} {p : Producer} {r : ProducerResult} {o : Ongoing}

theorem rebase_heeds (h : d.Onward e) (hout : Heeds told rest e task out) :
    Heeds told rest d task out :=
  ⟨h.trans hout.onward, hout.numbered, hout.heard⟩

theorem heeds_finished {yield : Yield} (h : d.Onward e) (hnumbered : Numbered d.tasks rest) :
    Heeds told rest d task (e, .finished yield) := by
  refine ⟨h, ?_, trivial⟩
  exact hnumbered.mono h.tasks (Multiset.zero_add rest).le

theorem onward_board {b : Board} (hcalm : d.board.Calm) (hcells : b.cells = d.board.cells)
    (hlive : b.cancelled = d.board.cancelled) (hnow : b.now = d.board.now) :
    d.Onward { d with board := b } :=
  .of_cells hcalm hcells hlive hnow rfl (Nat.le_refl _) (List.Subset.refl _)

/-- A cell may be settled once everyone in its line is told, and may be taken if nobody leaves the
line. -/
theorem onward_setCell {id : Nat} {cell : Cell} {notices : List Notice} (hcalm : d.board.Calm)
    (hcell : ∀ task line, cell ≠ .offered task line) (hnotices : d.notices ⊆ notices)
    (htaken : ∀ line, d.board.cells id = some (.taken line) →
      (∃ line', cell = .taken line' ∧ line ⊆ line') ∨
        (∃ r, cell = .settled r) ∧ ∀ n ∈ line, .wake n ∈ notices)
    (hsettled : ∀ r, d.board.cells id = some (.settled r) → ∃ r, cell = .settled r) :
    d.Onward { d with board := d.board.setCell id cell, notices } where
  calm := by
    refine ⟨hcalm.live, fun i task line h => ?_⟩
    by_cases hid : i = id
    · subst hid
      exact hcell task line (Option.some.inj ((Board.cells_setCell_self ..).symm.trans h))
    · exact hcalm.kept i task line ((Board.cells_setCell_of_ne hid).symm.trans h)
  now := rfl
  task := rfl
  tasks := Nat.le_refl _
  notices := hnotices
  taken {i line} h := by
    by_cases hid : i = id
    · subst hid
      have hself := Board.cells_setCell_self d.board i cell
      rcases htaken line h with ⟨line', rfl, hline⟩ | ⟨⟨r, rfl⟩, htold⟩
      · exact .inl ⟨line', hself, hline⟩
      · exact .inr ⟨⟨r, hself⟩, htold⟩
    · exact .inl ⟨line, (Board.cells_setCell_of_ne hid).trans h, List.Subset.refl line⟩
  settled {i r} h := by
    by_cases hid : i = id
    · subst hid
      obtain ⟨r', rfl⟩ := hsettled r h
      exact ⟨r', Board.cells_setCell_self _ _ _⟩
    · exact ⟨r, (Board.cells_setCell_of_ne hid).trans h⟩

theorem onward_settleCell (hcalm : d.board.Calm) (id : Nat) : d.Onward (d.settleCell id r) := by
  refine onward_setCell hcalm (by simp) (List.subset_append_left _ _) (fun line h => ?_)
    fun _ _ => ⟨r, rfl⟩
  refine .inr ⟨⟨r, rfl⟩, fun n hn => List.mem_append_right _ ?_⟩
  rw [h]
  exact List.mem_map_of_mem hn

theorem onward_take {id : Nat} (hcalm : d.board.Calm) (hcell : d.board.cells id = some .vacant) :
    d.Onward { d with board := d.board.setCell id (.taken []) } := by
  refine onward_setCell hcalm (by simp) (List.Subset.refl _) (fun line h => ?_) fun r h => ?_
  · cases hcell.symm.trans h
  · cases hcell.symm.trans h

theorem onward_join {id : Nat} {line : List Nat} (hcalm : d.board.Calm)
    (hcell : d.board.cells id = some (.taken line)) (task : Nat) :
    d.Onward { d with board := d.board.setCell id (.taken (line ++ [task])) } := by
  refine onward_setCell hcalm (by simp) (List.Subset.refl _) (fun line' h => ?_) fun r h => ?_
  · cases hcell.symm.trans h
    exact .inl ⟨_, rfl, List.subset_append_left _ _⟩
  · cases hcell.symm.trans h

/-! ## Calls -/

theorem heeds_receive (hcalm : d.board.Calm) (hnumbered : Numbered d.tasks rest) :
    Heeds told rest d task (receive d p r) :=
  heeds_finished (onward_board hcalm rfl rfl rfl) hnumbered

theorem heeds_settle {cell : Bool} (hcalm : d.board.Calm) (hnumbered : Numbered d.tasks rest) :
    Heeds told rest d task (settle d p cell r) := by
  cases cell with
  | true =>
    have honward := onward_settleCell hcalm p.id (r := r)
    exact rebase_heeds honward (heeds_receive honward.calm (hnumbered.mono honward.tasks (le_refl _)))
  | false => exact heeds_receive hcalm hnumbered

theorem heeds_complete (hcalm : d.board.Calm) (hnumbered : Numbered d.tasks rest) :
    Heeds told rest d task (complete s d o) := by
  have honward : d.Onward { d with board := (d.board.mark o.call .answered).look o.producer } :=
    onward_board hcalm rfl rfl rfl
  exact rebase_heeds honward (heeds_settle honward.calm hnumbered)

/-- Who makes a call has its result, or waits for the time. -/
theorem heeds_invoke (hs : s.Answering) {cell : Bool} (hcalm : d.board.Calm)
    (hnumbered : Numbered d.tasks rest) : Heeds told rest d d.task (invoke s d p cell) := by
  have hlook : d.Onward { d with board := d.board.look p } := onward_board hcalm rfl rfl rfl
  unfold invoke
  rw [hcalm.live]
  simp only [Bool.false_eq_true, if_false]
  cases hprepare : p.prepare s.client (d.board.look p).results with
  | error f => exact rebase_heeds hlook (heeds_settle hlook.calm hnumbered)
  | ok made =>
    obtain ⟨expected, request⟩ := made
    simp only [hs.steady, Bool.false_eq_true, if_false]
    have hsent : d.Onward { d with board := (d.board.look p).enter p request } :=
      onward_board hcalm rfl rfl rfl
    split
    · exact rebase_heeds hsent (heeds_complete hsent.calm hnumbered)
    · -- a call that is not answered at once is not due now
      next hdelay =>
      refine ⟨hsent, hnumbered.mono (Nat.le_refl _) (Multiset.zero_add rest).le, rfl, .inr ?_⟩
      obtain ⟨delay, heq⟩ := Option.isSome_iff_exists.1
        (hs.delayed p ((d.board.look p).callCount p) request)
      rw [heq] at hdelay ⊢
      have hpos : delay ≠ 0 := fun hzero => hdelay (congrArg some hzero)
      exact decide_eq_false (by simp only [Board.enter, Board.look]; omega)

theorem heeds_takeCell (hs : s.Answering) (hcalm : d.board.Calm) (hnumbered : Numbered d.tasks rest)
    (hcell : d.board.cells p.id = some .vacant) : Heeds told rest d d.task (takeCell s d p []) := by
  have honward := onward_take hcalm hcell
  exact rebase_heeds honward (heeds_invoke hs honward.calm hnumbered)

theorem heeds_request (hs : s.Answering) (hcalm : d.board.Calm)
    (hnumbered : Numbered d.tasks rest) : Heeds told rest d d.task (request s d p) := by
  unfold request
  cases hcell : d.board.cells p.id with
  | none => exact heeds_invoke hs hcalm hnumbered
  | some cell =>
    cases cell with
    | settled r => exact heeds_receive hcalm hnumbered
    | vacant => exact heeds_takeCell hs hcalm hnumbered hcell
    | offered first line => exact absurd hcell (hcalm.kept p.id first line)
    | taken line =>
      refine ⟨onward_join hcalm hcell d.task, ?_, .inl ⟨line ++ [d.task], ?_, by simp⟩⟩
      · exact hnumbered.mono (Nat.le_refl _) (Multiset.zero_add rest).le
      · exact Board.cells_setCell_self _ _ _

theorem heeds_recheck (hcalm : d.board.Calm) (hnumbered : Numbered d.tasks rest) {told' : Nat → Prop}
    (h : Heard d.board told' d.task (.waiting p)) :
    Heeds told rest d d.task (recheck s d p) := by
  unfold recheck
  rcases h with ⟨line, hcell, hline⟩ | ⟨-, r, hcell⟩
  · rw [hcell]
    refine ⟨.refl hcalm, ?_, .inl ⟨line, hcell, hline⟩⟩
    exact hnumbered.mono (Nat.le_refl _) (Multiset.zero_add rest).le
  · rw [hcell]
    exact heeds_receive hcalm hnumbered

theorem heeds_pollCall (hcalm : d.board.Calm) (hnumbered : Numbered d.tasks rest)
    (htask : o.task = d.task) : Heeds told rest d d.task (pollCall s d o) := by
  unfold pollCall
  rw [hcalm.live]
  simp only [Bool.false_eq_true, if_false]
  split
  · exact heeds_complete hcalm hnumbered
  · next hdue =>
    refine ⟨.refl hcalm, ?_, htask, .inr (Bool.eq_false_iff.2 hdue)⟩
    exact hnumbered.mono (Nat.le_refl _) (Multiset.zero_add rest).le

/-! ## Beginning and going on -/

/-- A parallel that is not over waits for a branch. -/
theorem heeds_collect {since : Nat} {names : List String} {collected arrived : List ProducerResult}
    {branches : List (Nat × Activity)} (hcalm : d.board.Calm)
    (hnumbered : Numbered d.tasks (↑(tasksInner branches) + rest))
    (h : TasksHeard d.board (d.Told told) branches) :
    Heeds told rest d task (collect d since names collected arrived branches) := by
  unfold collect
  show Heeds told rest d task (if _ then _ else _)
  split
  · refine heeds_finished ?_ (hnumbered.mono (Nat.le_refl _) (Multiset.le_add_left _ _))
    exact .of_cells hcalm rfl rfl rfl rfl (Nat.le_refl _) (List.subset_append_left _ _)
  · next hleft =>
    have hne : branches ≠ [] := fun hnil => hleft (by simp [hnil])
    exact ⟨.refl hcalm, hnumbered, .inr ⟨rfl, hne⟩, h⟩

/-- The tasks that are made of plans are told to begin. -/
theorem tasksHeard_spawn (plans : List Plan) :
    TasksHeard (d.spawn plans).1.board ((d.spawn plans).1.Told told) (d.spawn plans).2 := by
  have hall : ∀ tasks : List (Nat × Activity), tasks ⊆ (d.spawn plans).2 →
      TasksHeard (d.spawn plans).1.board ((d.spawn plans).1.Told told) tasks := by
    intro tasks
    induction tasks with
    | nil => exact fun _ => trivial
    | cons task others ih =>
      intro hsub
      obtain ⟨hmem, hothers⟩ := List.cons_subset.1 hsub
      obtain ⟨⟨plan, n⟩, -, rfl⟩ := List.mem_map.1 hmem
      refine ⟨⟨rfl, .inr (List.mem_append_right _ ?_)⟩, ih hothers⟩
      exact List.mem_map_of_mem (List.mem_map_of_mem hmem)
  exact hall _ (List.Subset.refl _)

theorem tasksInner_spawn (plans : List Plan) :
    tasksInner (d.spawn plans).2 = List.range' d.tasks plans.length := by
  show tasksInner ((plans.zipIdx d.tasks).map _) = _
  generalize d.tasks = first
  induction plans generalizing first with
  | nil => rfl
  | cons plan plans ih =>
    rw [List.zipIdx_cons, List.map_cons, tasksInner, ih]
    rfl

theorem numbered_spawn (plans : List Plan) (h : Numbered d.tasks rest) :
    Numbered (d.spawn plans).1.tasks (↑(tasksInner (d.spawn plans).2) + rest) := by
  rw [tasksInner_spawn]
  refine ⟨Multiset.nodup_add.2 ⟨?_, h.1, ?_⟩, fun n hn => ?_⟩
  · exact Multiset.coe_nodup.2 (List.nodup_range' ..)
  · rw [Multiset.disjoint_left]
    intro n hn hrest
    have hlt := h.2 n hrest
    have hge := (List.mem_range'_1.1 (Multiset.mem_coe.1 hn)).1
    omega
  · show n < d.tasks + plans.length
    rcases Multiset.mem_add.1 hn with hn | hn
    · exact (List.mem_range'_1.1 (Multiset.mem_coe.1 hn)).2
    · exact Nat.lt_add_right _ (h.2 n hn)

theorem onward_spawn (hcalm : d.board.Calm) (plans : List Plan) : d.Onward (d.spawn plans).1 :=
  .of_cells hcalm rfl rfl rfl rfl (Nat.le_add_right _ _) (List.subset_append_left _ _)

/-- What follows a step heeds everyone if the step does, and what is begun after it. -/
theorem heeds_afterStep {since : Nat} {progressed : Bool} {names : List String} {steps : List Plan}
    {next : Desk → Desk × Activity} (h : Heeds told rest d task out)
    (hnext : ∀ e : Desk, d.Onward e → Numbered e.tasks rest → Heeds told rest e task (next e)) :
    Heeds told rest d task (afterStep since progressed names steps next out) := by
  obtain ⟨e, a⟩ := out
  obtain ⟨honward, hnumbered, hheard⟩ := h
  cases a with
  | finished yield =>
    have hrest : Numbered e.tasks rest :=
      hnumbered.mono (Nat.le_refl _) (Multiset.zero_add rest).ge
    cases yield with
    | panic message => exact ⟨honward, hnumbered, trivial⟩
    | results rs =>
      show Heeds told rest d task (if _ then _ else _)
      split
      · exact ⟨honward, hnumbered, trivial⟩
      -- publishing concerns no cell, so nobody has to be told of it
      · have hpublished : d.Onward { e with board := e.board.publish rs } :=
          honward.trans (onward_board honward.calm rfl rfl rfl)
        cases firstFailure? rs with
        | some f => exact ⟨hpublished, hnumbered, trivial⟩
        | none => exact rebase_heeds hpublished (hnext _ hpublished hrest)
  | spawned | calling | waiting | stepping | gathering =>
    exact ⟨honward, hnumbered, rfl, hheard⟩

mutual

theorem heeds_start (hs : s.Answering) : ∀ {d : Desk} {plan : Plan}, d.board.Calm →
    Numbered d.tasks rest → Heeds told rest d d.task (start s d plan)
  | _, .call _, hcalm, hnumbered => heeds_request hs hcalm hnumbered
  | _, .sequence _, hcalm, hnumbered => heeds_startSteps hs hcalm hnumbered
  | d, .parallel branches, hcalm, hnumbered => by
    unfold start
    show Heeds told rest d d.task (if _ then _ else _)
    split
    · exact heeds_finished (.refl hcalm) hnumbered
    · have honward := onward_spawn hcalm branches
      exact rebase_heeds honward (heeds_collect honward.calm (numbered_spawn branches hnumbered)
        (tasksHeard_spawn branches))
  | _, .stub _ _ (some _), hcalm, hnumbered => heeds_finished (.refl hcalm) hnumbered
  | _, .stub _ _ none, hcalm, hnumbered => heeds_finished (.refl hcalm) hnumbered

theorem heeds_startSteps (hs : s.Answering) : ∀ {d : Desk} {steps : List Plan} {progressed : Bool}
    {names : List String}, d.board.Calm → Numbered d.tasks rest →
    Heeds told rest d d.task (startSteps s d progressed names steps)
  | _, [], _, _, hcalm, hnumbered => heeds_finished (.refl hcalm) hnumbered
  | d, step :: others, progressed, names, hcalm, hnumbered => by
    unfold startSteps
    rw [if_neg (by simp [hcalm.live])]
    refine heeds_afterStep (heeds_start hs hcalm hnumbered) fun e honward hrest => ?_
    rw [← honward.task]
    exact heeds_startSteps hs honward.calm hrest

end

theorem notMem_of_numbered {tasks n : Nat} {numbers : List Nat}
    (h : Numbered tasks (↑numbers + rest)) (hn : n ∈ rest) : n ∉ numbers := fun hmem =>
  Multiset.disjoint_left.1 (Multiset.nodup_add.1 h.1).2.2 (Multiset.mem_coe.2 hmem) hn

/-- Whoever goes on with an activity heeds everyone, and has done what it was told before its
turn. -/
theorem heeds_poll (hs : s.Answering) (hcalm : d.board.Calm) (htask : d.task ∈ rest) :
    ∀ {a : Activity}, Numbered d.tasks (↑a.inner + rest) →
      Heard d.board (d.Told fun n => told n ∨ n = d.task) d.task a →
      Heeds told rest d d.task (poll s d a)
  | .finished _, hnumbered, _ =>
    heeds_finished (.refl hcalm) (hnumbered.mono (Nat.le_refl _) (Multiset.zero_add rest).ge)
  | .spawned _, hnumbered, _ =>
    heeds_start hs hcalm (hnumbered.mono (Nat.le_refl _) (Multiset.zero_add rest).ge)
  | .calling _, hnumbered, h =>
    heeds_pollCall hcalm (hnumbered.mono (Nat.le_refl _) (Multiset.zero_add rest).ge) h.1
  | .waiting _, hnumbered, h =>
    heeds_recheck hcalm (hnumbered.mono (Nat.le_refl _) (Multiset.zero_add rest).ge) h
  | .stepping _ _ _ current _, hnumbered, h => by
    unfold poll
    rw [if_neg (by simp [hcalm.live])]
    refine heeds_afterStep (heeds_poll hs hcalm htask (a := current) hnumbered h.2)
      fun e honward hrest => ?_
    rw [← honward.task]
    exact heeds_startSteps hs honward.calm hrest
  | .gathering _ _ _ _ _, hnumbered, h =>
    heeds_collect hcalm hnumbered (Desk.tasksHeard_drop (notMem_of_numbered hnumbered htask) h.2)

/-! ## The turns of other tasks -/

/-- What a turn leaves of several tasks, none of which is that of the desk any more. -/
structure TasksHeed (told : Nat → Prop) (rest : Multiset Nat) (d : Desk)
    (out : Desk × List ProducerResult × List (Nat × Activity)) : Prop where
  onward : d.Onward out.1
  numbered : Numbered out.1.tasks (↑(tasksInner out.2.2) + rest)
  heard : TasksHeard out.1.board (out.1.Told told) out.2.2

theorem coe_tasksInner (task : Nat) (a : Activity) (others : List (Nat × Activity)) :
    (↑(tasksInner ((task, a) :: others)) + rest : Multiset Nat) =
      ↑a.inner + task ::ₘ (↑(tasksInner others) + rest) := by
  rw [tasksInner, ← Multiset.cons_coe, ← Multiset.coe_add, Multiset.cons_add, Multiset.add_assoc,
    Multiset.add_cons]

/-- The turn of one of several tasks, the others of which have been told. -/
theorem tasksHeed_poll {a : Activity} {others : List (Nat × Activity)} (htask : task = d.task)
    (hothers : TasksHeard d.board (d.Told told) others)
    (h : Heeds told (task ::ₘ (↑(tasksInner others) + rest)) d d.task (poll s d a)) :
    TasksHeed told rest d (match poll s d a with
      | (d, .finished yield) => (d, yield.contained a.names, others)
      | (d, a) => (d, [], (task, a) :: others)) := by
  subst htask
  obtain ⟨⟨e, a'⟩, hpoll⟩ : ∃ out, poll s d a = out := ⟨_, rfl⟩
  rw [hpoll] at h ⊢
  obtain ⟨honward, hnumbered, hheard⟩ := h
  cases a' with
  | finished yield =>
    refine ⟨honward, hnumbered.mono (Nat.le_refl _) ?_, honward.tasksHeard hothers⟩
    exact (Multiset.le_cons_self _ _).trans (Multiset.le_add_left _ _)
  | spawned | calling | waiting | stepping | gathering =>
    refine ⟨honward, ?_, ⟨rfl, hheard⟩, honward.tasksHeard hothers⟩
    rw [coe_tasksInner]
    exact hnumbered

@[simp] theorem isFinished_visit (d : Desk) (owner : Nat) (a : Activity) :
    (visit s d owner a).2.isFinished = a.isFinished := by
  cases a <;> rfl

mutual

/-- The turn of a branch within an activity heeds everyone. -/
theorem heeds_visit (hs : s.Answering) : ∀ {d : Desk} {rest : Multiset Nat} {owner : Nat}
    {a : Activity}, d.board.Calm → d.task ≠ owner → Numbered d.tasks (↑a.inner + rest) →
      Heard d.board (d.Told fun n => told n ∨ n = d.task) owner a →
      Heeds told rest d owner (visit s d owner a)
  | _, _, _, .finished _, hcalm, _, hnumbered, _ => ⟨.refl hcalm, hnumbered, trivial⟩
  | _, _, _, .spawned _, hcalm, howner, hnumbered, h =>
    ⟨.refl hcalm, hnumbered, Desk.Told.drop h (Ne.symm howner)⟩
  | _, _, _, .calling _, hcalm, howner, hnumbered, h =>
    ⟨.refl hcalm, hnumbered, h.1, h.2.imp_left (·.drop (Ne.symm howner))⟩
  | _, _, _, .waiting _, hcalm, howner, hnumbered, h =>
    ⟨.refl hcalm, hnumbered, h.imp_right (And.imp_left (·.drop (Ne.symm howner)))⟩
  | d, _, owner, .stepping _ _ _ current _, hcalm, howner, hnumbered, h => by
    obtain ⟨honward, hnumbered', hheard⟩ :=
      heeds_visit hs (a := current) hcalm howner hnumbered h.2
    exact ⟨honward, hnumbered', (isFinished_visit d owner current).trans h.1, hheard⟩
  | d, rest, owner, .gathering since names collected arrived branches, hcalm, howner, hnumbered,
      h => by
    obtain ⟨hown, hbranches⟩ := h
    obtain ⟨honward, hnumbered', hheard⟩ := tasksHeed_visit hs hcalm hnumbered hbranches
    have hown : d.Told told owner ∨ arrived = [] ∧ branches ≠ [] :=
      hown.imp_left (·.drop (Ne.symm howner))
    unfold visit
    show Heeds told rest d owner (if _ then _ else _, _)
    split
    · next hnone =>
      obtain ⟨hresults, hleft⟩ : (visitBranches s d branches).2.1 = [] ∧
          (visitBranches s d branches).2.2 ≠ [] := by simpa using hnone
      refine ⟨honward, hnumbered', ?_, hheard⟩
      refine hown.imp honward.mono fun h => ⟨?_, hleft⟩
      rw [h.1, hresults]
      rfl
    · -- the owner of the branches is told that there is something to collect
      have hwake : (visitBranches s d branches).1.Onward
          ((visitBranches s d branches).1.wake [owner]) :=
        .of_cells honward.calm rfl rfl rfl rfl (Nat.le_refl _) (List.subset_append_left _ _)
      refine ⟨honward.trans hwake, hnumbered', .inl (.inr ?_), hwake.tasksHeard hheard⟩
      exact List.mem_append_right _ (List.mem_singleton_self _)

theorem tasksHeed_visit (hs : s.Answering) : ∀ {d : Desk} {rest : Multiset Nat}
    {tasks : List (Nat × Activity)}, d.board.Calm →
      Numbered d.tasks (↑(tasksInner tasks) + rest) →
      TasksHeard d.board (d.Told fun n => told n ∨ n = d.task) tasks →
      TasksHeed told rest d (visitBranches s d tasks)
  | _, _, [], hcalm, hnumbered, _ => ⟨.refl hcalm, hnumbered, trivial⟩
  | d, rest, (task, a) :: others, hcalm, hnumbered, ⟨⟨hworking, ha⟩, hothers⟩ => by
    rw [coe_tasksInner] at hnumbered
    unfold visitBranches
    split
    · next htask =>
      have hmem : d.task ∈ task ::ₘ (↑(tasksInner others) + rest) :=
        htask ▸ Multiset.mem_cons_self _ _
      have hnone := notMem_of_numbered hnumbered hmem
      -- the turn is this one's, so that none of the others lose what they were told
      have hothers : TasksHeard d.board (d.Told told) others := by
        refine Desk.tasksHeard_drop (fun hin => ?_) hothers
        have hnodup := (Multiset.nodup_add.1 hnumbered.1).2.1
        refine (Multiset.nodup_cons.1 hnodup).1 (htask ▸ Multiset.mem_add.2 (.inl ?_))
        exact Multiset.mem_coe.2 hin
      exact tasksHeed_poll htask hothers (heeds_poll hs hcalm hmem hnumbered (htask ▸ ha))
    · next htask =>
      obtain ⟨honward, hnumbered', hheard⟩ := heeds_visit hs hcalm (Ne.symm htask) hnumbered ha
      rw [← Multiset.add_cons, add_left_comm] at hnumbered'
      have hothers' := honward.tasksHeard hothers
      rw [← honward.task] at hothers'
      obtain ⟨honward', hnumbered'', hheard'⟩ :=
        tasksHeed_visit hs honward.calm hnumbered' hothers'
      refine ⟨honward.trans honward', ?_, ⟨?_, honward'.heard hheard⟩, hheard'⟩
      · rw [coe_tasksInner, ← Multiset.add_cons, add_left_comm]
        exact hnumbered''
      · exact (isFinished_visit d task a).trans hworking

end

end Run

end Gateway
