import Gateway.Proofs.Run.Turns
import Gateway.Run.Clock
import Mathlib.Logic.Relation

/-!
# Gateway.Proofs.Run.Moves — what any schedule keeps

A run is one schedule of many: who is next is decided by a row of tasks, and time stands still while
anyone is ready. None of that matters to what a discipline keeps. So the schedule is left open here:
in a *move* any task may have a turn at any time, the row may change as it likes, and the time may
move on while tasks are ready. A discipline that does not mind the time is kept by every such
schedule, and the run that a plan has is one of them.

What is said of all schedules does not rest on the row being right. The order in which tasks are woken
is the part of a run that is least written down and most likely to change; a statement that holds only
for the order there is would be one about the order. It also makes the statements stronger where a
schedule is chosen by somebody else, as by the backends, which reply when they like.

There are things that are not true of all schedules, for example that a run comes to its end, or when it
does. For these see `Row` and `Prompt`, and for what is true of them after a cancellation `Alarm`.
-/

set_option autoImplicit false

namespace Gateway

open Activity (tasksOngoing tasksNames)

namespace Work

/-- What may come next, whoever the schedule prefers. -/
inductive Move (s : Setting) : Work → Work → Prop
  | turn (w : Work) (turn : Turn) : Move s w (w.take s turn)
  | row (w : Work) (ready : List Turn) (burst : Nat) : Move s w { w with ready, burst }
  | wait (w : Work) (time : Nat) : Move s w { w with board := w.board.wait time }
  | drop (w : Work) (hdrop : s.dropAt.isSome = true) : Move s w w.drop

/-- What some schedule leads to. -/
def Leads (s : Setting) : Work → Work → Prop := Relation.ReflTransGen (Move s)

theorem joinAll_eq (w : Work) (tasks : List Nat) :
    ∃ ready, w.joinAll tasks = { w with ready } := by
  induction tasks generalizing w with
  | nil => exact ⟨w.ready, rfl⟩
  | cons task rest ih =>
    obtain ⟨ready, hjoin⟩ : ∃ ready, w.join task = { w with ready } := by
      unfold join
      split
      · exact ⟨w.ready, rfl⟩
      · exact ⟨_, rfl⟩
    obtain ⟨ready', hrest⟩ := ih (w.join task)
    exact ⟨ready', by rw [joinAll, List.foldl_cons, ← joinAll, hrest, hjoin]⟩

/-- Notices change who is ready, and nothing else. -/
theorem passOn_eq (w : Work) (task : Nat) (notices : List Notice) :
    ∃ ready, w.passOn task notices = { w with ready } := by
  obtain ⟨ready, h⟩ := joinAll_eq w ((w.addressees notices).filter (· ≠ task))
  obtain ⟨ready', h'⟩ := joinAll_eq { w with ready } ((w.addressees notices).filter (· = task))
  exact ⟨ready', (congrArg (joinAll · _) h).trans h'⟩

theorem after_eq (w : Work) (d : Desk) (root : Activity) (givenUp : List (Nat × Activity)) :
    ∃ ready, w.after d root givenUp =
      { w with board := d.board, root, givenUp := givenUp ++ d.givenUp, ready,
               turn := w.turn + 1, tasks := d.tasks } :=
  passOn_eq _ _ _

@[simp] theorem board_after (w : Work) (d : Desk) (root : Activity)
    (givenUp : List (Nat × Activity)) : (w.after d root givenUp).board = d.board := by
  obtain ⟨ready, hafter⟩ := after_eq w d root givenUp
  rw [hafter]

@[simp] theorem root_after (w : Work) (d : Desk) (root : Activity)
    (givenUp : List (Nat × Activity)) : (w.after d root givenUp).root = root := by
  obtain ⟨ready, hafter⟩ := after_eq w d root givenUp
  rw [hafter]

/-- What a turn leaves: that of the cancellation may have nothing to do, and that of a task is one of
the root or one of a branch, within the root or within what was given up. -/
inductive Taken (s : Setting) (w : Work) : Turn → Work → Prop
  | idle : Taken s w .cancellation w
  | cancellation {ready : List Turn} (hcancel : s.cancelAt.isSome = true) :
      Taken s w .cancellation { w with board := w.board.cancel, ready }
  | root : Taken s w .root (w.afterRoot (Run.poll s (w.desk 0) w.root))
  | branch {n : Nat} (hn : n ≠ 0) : Taken s w (.task n)
      (w.after (Run.visitGivenUp s (Run.visit s (w.desk n) 0 w.root).1 w.givenUp).1
        (Run.visit s (w.desk n) 0 w.root).2
        (Run.visitGivenUp s (Run.visit s (w.desk n) 0 w.root).1 w.givenUp).2)

theorem taken (s : Setting) (w : Work) (turn : Turn) : Taken s w turn (w.take s turn) := by
  unfold take
  split
  · split
    · next hdue =>
      obtain ⟨ready, hjoin⟩ := joinAll_eq { w with board := w.board.cancel } w.listeners
      rw [hjoin]
      refine .cancellation ?_
      cases hcancel : s.cancelAt with
      | none => simp [hcancel] at hdue
      | some time => rfl
    · exact .idle
  · exact .root
  · next n hn => exact .branch hn

theorem take_branch {s : Setting} {w : Work} {n : Nat} (hn : n ≠ 0) : w.take s (.task n) =
    w.after (Run.visitGivenUp s (Run.visit s (w.desk n) 0 w.root).1 w.givenUp).1
      (Run.visit s (w.desk n) 0 w.root).2
      (Run.visitGivenUp s (Run.visit s (w.desk n) 0 w.root).1 w.givenUp).2 := by
  have htaken := w.taken s (.task n)
  generalize w.take s (.task n) = v at htaken ⊢
  cases htaken with
  | root => exact absurd rfl hn
  | branch => rfl

/-- Nobody but the one whose turn it is leaves the row. -/
theorem mem_of_next? {w v : Work} {turn x : Turn} (h : w.next? = some (turn, v))
    (hx : x ∈ w.ready) :
    x = turn ∨ x ∈ v.ready := by
  unfold next? at h
  split at h
  · next hothers =>
    split at h
    · cases h
    · cases h
      refine .inl ?_
      by_contra hne
      have hmem : x ∈ w.ready.filter (· ≠ .root) := List.mem_filter.2 ⟨hx, decide_eq_true hne⟩
      rw [hothers] at hmem
      cases hmem
  · next turn' others hothers =>
    split at h
    · cases h
      by_cases hroot : x = .root
      · exact .inl hroot
      · refine .inr ?_
        rw [← hothers]
        exact List.mem_filter.2 ⟨hx, decide_eq_true hroot⟩
    · cases h
      by_cases hturn : x = turn
      · exact .inl hturn
      · exact .inr ((List.mem_erase_of_ne hturn).2 hx)

/-- What a step leaves: somebody leaves the row, and has a turn if that achieves something. -/
inductive Stepped (s : Setting) (w : Work) : Work → Prop
  | took {turn : Turn} {ready : List Turn} {burst : Nat}
      (hrow : ∀ x ∈ w.ready, x = turn ∨ x ∈ ready) :
      Stepped s w (take s { w with ready, burst } turn)
  | passed {turn : Turn} {ready : List Turn} {burst : Nat}
      (hrow : ∀ x ∈ w.ready, x = turn ∨ x ∈ ready)
      (hweight : w.weight ≤ (take s { w with ready, burst } turn).weight) :
      Stepped s w { w with ready, burst }

theorem stepped {s : Setting} {w v : Work} (h : w.step? s = some v) : Stepped s w v := by
  obtain ⟨⟨turn, u⟩, hnext, hstep⟩ := Option.map_eq_some_iff.1 h
  have hrow : ∀ x ∈ w.ready, x = turn ∨ x ∈ u.ready := fun _ => mem_of_next? hnext
  obtain ⟨ready, burst, rfl, -⟩ := next?_eq_some hnext
  simp only at hstep
  split at hstep
  · exact hstep ▸ .took hrow
  · next hweight => exact hstep ▸ .passed hrow (Nat.not_lt.1 hweight)

theorem leads_step? {s : Setting} {w v : Work} (h : w.step? s = some v) : w.Leads s v := by
  cases stepped h with
  | @took turn ready burst _ =>
    exact Relation.ReflTransGen.tail (.single (.row w ready burst)) (.turn _ turn)
  | passed => exact .single (.row w _ _)

theorem leads_advance (s : Setting) (w : Work) (time : Nat) : w.Leads s (w.advance s time) :=
  Relation.ReflTransGen.tail (.single (.wait w time)) (.row _ _ _)

theorem leads_settle (s : Setting) (w : Work) : w.Leads s (w.settle s) := by
  fun_induction settle s w with
  | case1 w v hstep ih => exact (leads_step? hstep).trans ih
  | case2 w hstep => exact .refl

theorem isSome_of_droppedBefore {s : Setting} {t : Option Nat} (h : droppedBefore s t = true) :
    s.dropAt.isSome = true := by
  unfold droppedBefore at h
  cases hdrop : s.dropAt with
  | none => rw [hdrop] at h; cases h
  | some d => rfl

theorem leads_finish (s : Setting) (w : Work) : w.Leads s (w.finish s).1 := by
  fun_induction finish s w with
  | case1 w yield hroot => exact .refl
  | case2 w v hstep _ ih => exact (leads_step? hstep).trans ih
  | case3 w _ t _ hdrop => exact .single (.drop w (isSome_of_droppedBefore hdrop))
  | case4 w _ t _ _ _ ih => exact (leads_advance s w t).trans ih
  | case5 w _ _ hdrop => exact .single (.drop w (isSome_of_droppedBefore hdrop))
  | case6 w => exact .refl

theorem root_finish {s : Setting} {w : Work} {yield : Yield}
    (h : (w.finish s).2 = .finished yield) : (w.finish s).1.root = .finished yield := by
  fun_induction finish s w with
  | case1 w yield' hroot =>
    cases h
    exact hroot
  | case2 w v _ _ ih => exact ih h
  | case3 w => cases h
  | case4 w _ t _ _ _ ih => exact ih h
  | case5 w => cases h
  | case6 w => cases h

/-- A run of a plan once the plan is begun. -/
def opening (s : Setting) (b : Board) (plan : Plan) : Work := (ofBoard s b).begin s plan

/-- The run of a plan is one of the schedules, and so is what the tasks do that end later. -/
theorem run_eq (s : Setting) (b : Board) (plan : Plan) :
    ∃ w v, (opening s b plan).Leads s w ∧ w.Leads s v ∧ (plan.run s b).board = w.board ∧
      (∀ yield, (plan.run s b).outcome = .finished yield → w.root = .finished yield) ∧
      (plan.run s b).calls = v.board.calls :=
  ⟨_, _, leads_finish s (opening s b plan), leads_settle s _, rfl, fun _ h => root_finish h, rfl⟩

end Work

/-! ## What is dropped with the whole run -/

namespace Desk

@[simp] theorem cancelled_cancel (d : Desk) : d.cancel.board = d.board.cancel := by
  unfold cancel
  split
  · next hcancelled => rw [Board.cancel, ← hcancelled]
  · rfl

@[simp] theorem givenUp_cancel (d : Desk) : d.cancel.givenUp = d.givenUp := by
  unfold cancel
  split <;> rfl

@[simp] theorem task_cancel (d : Desk) : d.cancel.task = d.task := by
  unfold cancel
  split <;> rfl

/-- Desks that differ in whether the run is cancelled, and in notices. -/
structure Twin (d e : Desk) : Prop where
  board : e.board = d.board.cancel
  task : e.task = d.task
  givenUp : e.givenUp = d.givenUp

theorem twin_cancel (d : Desk) : d.Twin d.cancel :=
  ⟨cancelled_cancel d, task_cancel d, givenUp_cancel d⟩

/-- What is dropped does not depend on whether the run is cancelled before or after. -/
theorem Twin.drop {d e : Desk} (h : d.Twin e) : ∀ a : Activity, (d.drop a).Twin (e.drop a)
  | .finished _ | .spawned _ => h
  | .calling o => by
    obtain ⟨hboard, htask, hgiven⟩ := h
    unfold Desk.drop
    split
    · exact ⟨by simp only [releaseCell, Desk.setCell, wake, hboard]; rfl, htask, hgiven⟩
    · exact ⟨by simp only [hboard]; rfl, htask, hgiven⟩
  | .waiting p => by
    obtain ⟨hboard, htask, hgiven⟩ := h
    have hcells : e.board.cells p.id = d.board.cells p.id := by rw [hboard]; rfl
    unfold Desk.drop leaveLine
    rw [hcells]
    split
    · exact ⟨by simp only [Desk.setCell, wake, hboard, htask]; rfl, htask, hgiven⟩
    · exact ⟨hboard, htask, hgiven⟩
  | .stepping _ _ _ current _ => by
    unfold Desk.drop
    exact Twin.drop h current
  | .gathering _ _ _ _ branches => by
    obtain ⟨hboard, htask, hgiven⟩ := h
    exact ⟨hboard, htask, by simp only [Desk.drop, giveUp, wake, hgiven]⟩

end Desk

theorem Work.cancelled_drop (w : Work) : w.drop.board.cancelled = true := by
  rw [drop, afterRoot, board_after, Desk.cancelled_cancel]
  rfl

namespace Discipline

variable {s : Setting} (J : Discipline s)

/-- A work is in order. -/
structure Kept (w : Work) : Prop where
  inv : J.Inv w.board ↑w.ongoing
  root : J.Ok w.board w.root
  tasks : J.OkTasks w.board w.givenUp
  cancelled : w.givenUp ≠ [] → w.board.cancelled = true

/-- Whether a discipline lets time pass. -/
def Patient : Prop :=
  ∀ {b : Board} {calls : Multiset Ongoing} (time : Nat), J.Inv b calls → J.Inv (b.wait time) calls

variable {J}

theorem Kept.givenUp_eq_nil {w : Work} (h : J.Kept w) (hlive : w.board.cancelled = false) :
    w.givenUp = [] := by
  by_contra hne
  exact absurd (h.cancelled hne) (ne_true_of_eq_false hlive)

theorem Kept.sound {w : Work} (h : J.Kept w) (task : Nat) :
    J.Sound (w.desk task) (↑w.root.ongoing + ↑(tasksOngoing w.givenUp)) where
  inv := by
    rw [Multiset.coe_add]
    exact (Multiset.zero_add (↑w.ongoing : Multiset Ongoing)).symm ▸ h.inv
  ok := trivial
  cancelled hne := absurd rfl hne

theorem kept_of_row {w : Work} {ready : List Turn} {burst : Nat} (h : J.Kept w) :
    J.Kept { w with ready, burst } :=
  ⟨h.inv, h.root, h.tasks, h.cancelled⟩

theorem kept_after {w : Work} {d : Desk} {root : Activity} {givenUp : List (Nat × Activity)}
    (h : J.Sound d (↑root.ongoing + ↑(tasksOngoing givenUp))) (hroot : J.Ok d.board root)
    (htasks : J.OkTasks d.board givenUp)
    (hcancelled : givenUp ≠ [] → d.board.cancelled = true) : J.Kept (w.after d root givenUp) := by
  obtain ⟨ready, hafter⟩ := w.after_eq d root givenUp
  rw [hafter]
  refine ⟨?_, hroot, okTasks_append J htasks h.ok, fun hne => ?_⟩
  · have hcalls : (↑(tasksOngoing d.givenUp) + (↑root.ongoing + ↑(tasksOngoing givenUp)) :
        Multiset Ongoing) = ↑(root.ongoing ++ tasksOngoing (givenUp ++ d.givenUp)) := by
      rw [Activity.tasksOngoing_append, ← Multiset.coe_add, ← Multiset.coe_add,
        Multiset.add_comm, Multiset.add_assoc]
    exact hcalls ▸ h.inv
  · cases hgiven : givenUp with
    | nil => exact h.cancelled fun hnil => hne (by rw [hgiven, hnil]; rfl)
    | cons task others => exact hcancelled (by rw [hgiven]; exact List.cons_ne_nil _ _)

/-- Beginning a plan, in a turn of the root that has nothing left to do, keeps the work in order. The
root announces the results of the plan. -/
theorem Kept.begin {w : Work} {plan : Plan} (h : J.Kept w) (hroot : w.root.ongoing = [])
    (hpre : J.Pre w.board plan) :
    J.Kept (w.begin s plan) ∧ w.board.Extends (w.begin s plan).board ∧
      (w.begin s plan).root.names.Perm plan.names := by
  have hsound := h.sound 0
  rw [hroot, Multiset.coe_nil, Multiset.zero_add] at hsound
  obtain ⟨hsound', hext, hok, hnames⟩ := leaves_start (d := w.desk 0) hsound hpre
  refine ⟨kept_after hsound' hok (OkTasks.mono J hext h.tasks) fun hne =>
    hext.cancelled (h.cancelled hne), ?_⟩
  rw [Work.begin, Work.afterRoot, Work.board_after, Work.root_after]
  exact ⟨hext, hnames⟩

theorem kept_opening {b : Board} {plan : Plan} (hinv : J.Inv b 0) (hpre : J.Pre b plan) :
    J.Kept (Work.opening s b plan) ∧ b.Extends (Work.opening s b plan).board ∧
      (Work.opening s b plan).root.names.Perm plan.names :=
  Kept.begin (w := Work.ofBoard s b)
    ⟨hinv, fun _ hr => absurd hr List.not_mem_nil, trivial, fun hne => absurd rfl hne⟩ rfl hpre

/-- A turn keeps the work in order, whosever turn it is. It adds to the board, and the root still
announces the same results. -/
theorem Kept.take {w : Work} (h : J.Kept w) (turn : Turn) :
    J.Kept (w.take s turn) ∧ w.board.Extends (w.take s turn).board ∧
      (w.take s turn).root.names.Perm w.root.names := by
  have htaken := w.taken s turn
  generalize w.take s turn = v at htaken ⊢
  cases htaken with
  | idle => exact ⟨h, .refl _, List.Perm.refl _⟩
  | cancellation hcancel =>
    obtain ⟨hinv, hext⟩ := J.deed (.cancel (.inl hcancel)) h.inv
    exact ⟨⟨hinv, Ok.mono J hext h.root, OkTasks.mono J hext h.tasks, fun _ => rfl⟩, hext,
      List.Perm.refl _⟩
  | root =>
    obtain ⟨hsound, hext, hok, hnames⟩ := leaves_poll (h.sound 0) h.root
    refine ⟨kept_after hsound hok (OkTasks.mono J hext h.tasks) fun hne =>
      hext.cancelled (h.cancelled hne), ?_, ?_⟩
    · rw [Work.afterRoot, Work.board_after]
      exact hext
    · rw [Work.afterRoot, Work.root_after]
      exact hnames
  | @branch task hne =>
    obtain ⟨hsound, hext, hok, hnames⟩ := leaves_visit 0 (h.sound task) h.root
    rw [Multiset.add_comm] at hsound
    obtain ⟨hsound', hext', -, htasks, -⟩ := leaves_visitGivenUp hsound
      (OkTasks.mono J hext h.tasks) fun hne => hext.cancelled (h.cancelled hne)
    rw [Multiset.add_comm] at hsound'
    rw [Work.board_after, Work.root_after]
    -- somebody was given up, in this turn or before, and so the run is cancelled
    refine ⟨kept_after hsound' (Ok.mono J hext' hok) htasks fun hne' => ?_, hext.trans hext', hnames⟩
    refine hext'.cancelled (hext.cancelled (h.cancelled fun hnil => hne' ?_))
    rw [hnil]
    rfl

theorem Kept.stepped {w v : Work} (h : J.Kept w) (hstep : w.Stepped s v) :
    J.Kept v ∧ w.board.Extends v.board ∧ v.root.names.Perm w.root.names := by
  cases hstep with
  | @took turn ready burst _ => exact (kept_of_row h).take (w := { w with ready, burst }) turn
  | passed => exact ⟨kept_of_row h, .refl _, List.Perm.refl _⟩

theorem Kept.step {w v : Work} (h : J.Kept w) (hstep : w.step? s = some v) :
    J.Kept v ∧ w.board.Extends v.board ∧ v.root.names.Perm w.root.names :=
  h.stepped (Work.stepped hstep)

theorem Kept.drop {w : Work} (h : J.Kept w) (hdrop : s.dropAt.isSome = true) :
    J.Kept w.drop := by
  obtain ⟨hsound, hext⟩ := sound_cancel (h.sound 0) (.inr (.inl hdrop))
  have hcancelled : (w.desk 0).cancel.board.cancelled = true := by
    rw [Desk.cancelled_cancel]
    rfl
  obtain ⟨hsound', hext'⟩ := sound_drop hsound (Ok.mono J hext h.root) hcancelled
  -- the run drops its root first and is cancelled then; the other way round it comes to the same
  obtain ⟨hboard, -, hgiven⟩ := (Desk.twin_cancel (w.desk 0)).drop w.root
  refine kept_after ⟨?_, ?_, fun _ => ?_⟩ (fun r hr => absurd hr List.not_mem_nil) ?_ ?_
  · rw [Desk.cancelled_cancel, Desk.givenUp_cancel, ← hboard, ← hgiven]
    exact (Multiset.zero_add (↑(tasksOngoing w.givenUp) : Multiset Ongoing)).symm ▸ hsound'.inv
  · rw [Desk.cancelled_cancel, Desk.givenUp_cancel, ← hboard, ← hgiven]
    exact hsound'.ok
  · rw [Desk.cancelled_cancel]
    rfl
  · rw [Desk.cancelled_cancel, ← hboard]
    exact OkTasks.mono J (hext.trans hext') h.tasks
  · intro _
    rw [Desk.cancelled_cancel]
    rfl

/-- Every schedule keeps the work in order. None takes a cancellation back, and without one the root
still announces the same results. -/
theorem Kept.leads (hpatient : J.Patient) {w v : Work} (h : J.Kept w) (hwv : w.Leads s v) :
    J.Kept v ∧ (w.board.cancelled = true → v.board.cancelled = true) ∧
      (v.board.cancelled = false → v.root.names.Perm w.root.names) := by
  induction hwv with
  | refl => exact ⟨h, id, fun _ => List.Perm.refl _⟩
  | tail _ hmove ih =>
    obtain ⟨hkept, hcancelled, hnames⟩ := ih
    cases hmove with
    | turn turn =>
      obtain ⟨hkept', hext, hnames'⟩ := hkept.take turn
      exact ⟨hkept', fun hw => hext.cancelled (hcancelled hw),
        fun hlive => hnames'.trans (hnames (hext.live hlive))⟩
    | row ready burst => exact ⟨kept_of_row hkept, hcancelled, hnames⟩
    | wait time =>
      exact ⟨⟨hpatient time hkept.inv, Ok.mono J (Board.extends_wait _ time) hkept.root,
        OkTasks.mono J (Board.extends_wait _ time) hkept.tasks, hkept.cancelled⟩, hcancelled, hnames⟩
    | drop hdrop =>
      refine ⟨hkept.drop hdrop, fun _ => Work.cancelled_drop _, fun hlive => ?_⟩
      exact absurd (Work.cancelled_drop _) (ne_true_of_eq_false hlive)

end Discipline

end Gateway
