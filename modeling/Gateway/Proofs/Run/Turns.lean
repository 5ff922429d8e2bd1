import Gateway.Proofs.Run.Upkeep
import Mathlib.Algebra.Order.Group.Multiset

/-!
# Gateway.Proofs.Run.Turns — beginning plans and going on with activities

The recursive half of a turn. A plan is begun by recursion on the plan, an activity is gone on with
by recursion on the activity, and each of these keeps a discipline because its parts do.

The recursions are those of the program, with one case for each of theirs. What makes them go through is
that a lemma speaks of one desk only and of the rest of the calls as a whole: a part is gone on with on
the desk that the part before it left, and what that one is at has become part of the rest. In the other
direction, what a part knows of its own survives what the later ones do because it can be read off
every board that extends the one it was true of (`Leaves.rebase`).

Steps are the only place where something is published, and where the law of a discipline for going on is
used. Whether there is a failure among the results, and whether the run has been cancelled meanwhile, is
looked at there and nowhere else.
-/

set_option autoImplicit false

namespace Gateway

open Activity (tasksOngoing tasksNames)

namespace Discipline

variable {s : Setting} {J : Discipline s}

/-- When the results of a step are published, the steps that are left may be begun if there is no
failure among them. -/
theorem published_of_leaves {d e : Desk} {rest : Multiset Ongoing} {step : Plan}
    {others : List Plan} {rs : List ProducerResult}
    (hpre : J.Pre d.board (.sequence (step :: others))) (hne : others ≠ [])
    (h : J.Leaves d rest step.names (e, .finished (.results rs))) :
    J.Sound { e with board := e.board.publish rs } rest ∧ d.board.Extends (e.board.publish rs) ∧
      (firstFailure? rs = none → e.board.cancelled = false →
        J.Pre (e.board.publish rs) (.sequence others)) := by
  obtain ⟨hsound, hext, hok, hnames⟩ := h
  have hsound' : J.Sound e rest := Multiset.zero_add rest ▸ hsound
  obtain ⟨hpublished, hext'⟩ := hsound'.deed (e := { e with board := e.board.publish rs }) rfl rfl
    (.publish hok)
  exact ⟨hpublished, hext.trans hext', fun hf hlive =>
    J.next hpublished.inv hlive (J.pre_mono hext hpre) hne hnames hok hf⟩

/-- What follows a step: the steps that are left are begun if the first has no failure. -/
theorem leaves_afterStep {d : Desk} {rest : Multiset Ongoing} {since : Nat} {progressed : Bool}
    {step : Plan} {others : List Plan} {next : Desk → Desk × Activity} {out : Desk × Activity}
    (hpre : J.Pre d.board (.sequence (step :: others))) (h : J.Leaves d rest step.names out)
    (hnext : others ≠ [] → ∀ e, J.Sound e rest →
      (e.board.cancelled = false → J.Pre e.board (.sequence others)) →
      J.Leaves e rest (Plan.lastNames others) (next e)) :
    J.Leaves d rest (Plan.lastNames (step :: others))
      (Run.afterStep since progressed (Plan.lastNames (step :: others)) others next out) := by
  obtain ⟨e, a⟩ := out
  obtain ⟨hsound, hext, hok, hnames⟩ := h
  have hworking : J.Leaves d rest (Plan.lastNames (step :: others))
      (e, .stepping since progressed (Plan.lastNames (step :: others)) a others) :=
    ⟨hsound, hext, ⟨⟨step, hnames, rfl, J.pre_mono hext hpre⟩, hok⟩, List.Perm.refl _⟩
  cases a with
  | finished yield =>
    cases yield with
    | panic message => exact absurd hok id
    | results rs =>
      -- the last step yields for the whole sequence; the results of any other are published first
      cases others with
      | nil => exact ⟨hsound, hext, hok, hnames⟩
      | cons other others =>
        obtain ⟨hpublished, hext', hnext'⟩ := published_of_leaves hpre (List.cons_ne_nil _ _)
          ⟨hsound, hext, hok, hnames⟩
        rw [Run.afterStep, if_neg (by simp)]
        cases hf : firstFailure? rs with
        | some f =>
          refine leaves_finished hpublished hext' (fun r hr => ?_) ?_
          · obtain ⟨name, hname, rfl⟩ := List.mem_map.1 hr
            exact J.skip hpublished.inv (J.pre_mono hext hpre) (List.cons_ne_nil _ _) hnames hok hf
              hname
          · rw [skipped, List.map_map]
            exact List.Perm.of_eq (List.map_id _)
        | none => exact (hnext (List.cons_ne_nil _ _) _ hpublished (hnext' hf)).rebase hext'
  | spawned plan => exact hworking
  | calling o => exact hworking
  | waiting p => exact hworking
  | stepping since progressed names current rest => exact hworking
  | gathering since names collected arrived branches => exact hworking

/-- A sequence that is interrupted by a cancellation has results for all its names. -/
theorem leaves_interrupted {d e : Desk} {rest : Multiset Ongoing} {progressed : Bool}
    {names : List String} (hext : d.board.Extends e.board) (h : J.Sound e rest)
    (hcancelled : e.board.cancelled = true) :
    J.Leaves d rest names (e, .finished (.results (interrupted progressed names))) := by
  refine leaves_finished h hext (fun r hr => ?_) ?_
  · obtain ⟨name, -, rfl⟩ := List.mem_map.1 hr
    exact J.cancelled hcancelled rfl
  · rw [interrupted, skipped, List.map_map]
    exact List.Perm.of_eq (List.map_id _)

theorem sound_spawn {d : Desk} {rest : Multiset Ongoing} (h : J.Sound d rest) (plans : List Plan) :
    J.Sound (d.spawn plans).1 rest :=
  ⟨h.inv, h.ok, h.cancelled⟩

/-- The tasks that plans are made into, numbered from some number on. -/
theorem spawned_induction {motive : List Plan → List (Nat × Activity) → Prop}
    (hnil : motive [] [])
    (hcons : ∀ (plan : Plan) (rest : List Plan) (task : Nat) (tasks : List (Nat × Activity)),
      motive rest tasks → motive (plan :: rest) ((task, .spawned plan) :: tasks))
    (d : Desk) (plans : List Plan) : motive plans (d.spawn plans).2 := by
  show motive plans ((plans.zipIdx d.tasks).map _)
  generalize d.tasks = task
  induction plans generalizing task with
  | nil => exact hnil
  | cons plan rest ih => exact hcons plan rest task _ (ih (task + 1))

theorem tasksNames_spawn (d : Desk) (plans : List Plan) :
    tasksNames (d.spawn plans).2 = Plan.allNames plans := by
  refine spawned_induction (motive := fun plans tasks => tasksNames tasks = Plan.allNames plans)
    rfl (fun plan rest task tasks ih => ?_) d plans
  rw [tasksNames, List.flatMap_cons, ← tasksNames, ih]
  rfl

theorem tasksOngoing_spawn (d : Desk) (plans : List Plan) :
    tasksOngoing (d.spawn plans).2 = [] :=
  spawned_induction (motive := fun _ tasks => tasksOngoing tasks = []) rfl
    (fun _ _ _ _ ih => ih) d plans

theorem okTasks_spawn {b : Board} (d : Desk) {plans : List Plan}
    (h : ∀ plan ∈ plans, J.Pre b plan ∧ plan.names ≠ []) : J.OkTasks b (d.spawn plans).2 := by
  refine spawned_induction (motive := fun plans tasks =>
    (∀ plan ∈ plans, J.Pre b plan ∧ plan.names ≠ []) → J.OkTasks b tasks)
    (fun _ => trivial) (fun plan rest task tasks ih h => ?_) d plans h
  obtain ⟨hpre, hne⟩ := h plan List.mem_cons_self
  exact ⟨⟨hne, hpre⟩, ih fun other hother => h other (List.mem_cons_of_mem plan hother)⟩

theorem lastNames_cons {step : Plan} {others : List Plan} (h : others ≠ []) :
    Plan.lastNames (step :: others) = Plan.lastNames others := by
  cases others with
  | nil => exact absurd rfl h
  | cons other others => rfl

theorem start_parallel (d : Desk) {branches : List Plan} (h : Plan.allNames branches ≠ []) :
    Run.start s d (.parallel branches) =
      Run.collect (d.spawn branches).1 d.turn (Plan.allNames branches) [] []
        (d.spawn branches).2 := by
  unfold Run.start
  exact if_neg fun hnone => h (List.isEmpty_iff.1 hnone)

mutual

theorem leaves_start {d : Desk} {rest : Multiset Ongoing} :
    ∀ {plan : Plan}, J.Sound d rest → J.Pre d.board plan →
      J.Leaves d rest plan.names (Run.start s d plan)
  | .call p, h, hpre => leaves_request h hpre
  | .sequence steps, h, hpre => leaves_startSteps h fun _ => hpre
  | .parallel branches, h, hpre => by
    by_cases hnone : Plan.allNames branches = []
    · unfold Run.start
      rw [if_pos (List.isEmpty_iff.2 hnone)]
      refine leaves_finished h (.refl _) (fun r hr => absurd hr List.not_mem_nil) ?_
      exact List.Perm.of_eq hnone.symm
    · rw [start_parallel d hnone]
      refine leaves_collect (.refl _) ?_ ⟨?_, ?_, ?_⟩
      · rw [tasksOngoing_spawn, Multiset.coe_nil, Multiset.zero_add]
        exact sound_spawn h branches
      · rw [tasksNames_spawn]
        exact List.Perm.refl _
      · exact fun r hr => absurd hr List.not_mem_nil
      · exact okTasks_spawn d fun branch hbranch => J.branch hpre hbranch
  | .stub .., _, hpre => absurd hpre J.stub

theorem leaves_startSteps {d : Desk} {rest : Multiset Ongoing} {progressed : Bool} :
    ∀ {steps : List Plan}, J.Sound d rest →
      (d.board.cancelled = false → J.Pre d.board (.sequence steps)) →
      J.Leaves d rest (Plan.lastNames steps)
        (Run.startSteps s d progressed (Plan.lastNames steps) steps)
  | [], h, _ =>
    leaves_finished h (.refl _) (fun r hr => absurd hr List.not_mem_nil) (List.Perm.refl _)
  | step :: others, h, hpre => by
    unfold Run.startSteps
    split
    · next hcancelled => exact leaves_interrupted (.refl _) h hcancelled
    -- what the other steps need is known when this one has ended, so it is asked of them then
    · next hcancelled =>
      have hpre := hpre (Bool.eq_false_iff.2 hcancelled)
      refine leaves_afterStep hpre (leaves_start h (J.step hpre)) fun hne e hsound hrest => ?_
      rw [lastNames_cons hne]
      exact leaves_startSteps hsound hrest

end

theorem leaves_poll {d : Desk} {rest : Multiset Ongoing} :
    ∀ {a : Activity}, J.Sound d (↑a.ongoing + rest) → J.Ok d.board a →
      J.Leaves d rest a.names (Run.poll s d a)
  | .finished (.results _), h, hok => ⟨h, .refl _, hok, List.Perm.refl _⟩
  | .finished (.panic _), _, hok => absurd hok id
  | .spawned _, h, hok => leaves_start (Multiset.zero_add rest ▸ h) hok
  | .calling o, h, _ => leaves_pollCall (by
      rwa [Activity.ongoing, Multiset.coe_singleton, Multiset.singleton_add] at h)
  | .waiting _, h, hok => leaves_recheck (Multiset.zero_add rest ▸ h) hok
  | .stepping since progressed names current others, h, hok => by
    obtain ⟨⟨step, hnames, rfl, hpre⟩, hcurrent⟩ := hok
    unfold Run.poll
    split
    · next hcancelled =>
      obtain ⟨hsound, hext⟩ := sound_drop (a := current) h hcurrent hcancelled
      exact leaves_interrupted hext hsound (hext.cancelled hcancelled)
    · refine leaves_afterStep hpre ((leaves_poll (a := current) h hcurrent).rename hnames)
        fun hne e hsound hrest => ?_
      rw [lastNames_cons hne]
      exact leaves_startSteps hsound hrest
  | .gathering _ _ _ _ _, h, hok => leaves_collect (.refl _) h hok

/-! ## The turns of other tasks -/

/-- What a turn leaves of several tasks is in order: those that are left, with their calls, and the
results of the one that is over. -/
structure LeavesTasks (J : Discipline s) (d : Desk) (rest : Multiset Ongoing)
    (names : List String) (out : Desk × List ProducerResult × List (Nat × Activity)) : Prop where
  sound : J.Sound out.1 (↑(tasksOngoing out.2.2) + rest)
  extend : d.board.Extends out.1.board
  right : ∀ r ∈ out.2.1, J.Right out.1.board r
  ok : J.OkTasks out.1.board out.2.2
  names : names.Perm (out.2.1.map (·.name) ++ tasksNames out.2.2)

/-- Tasks may wait for the turn of one among them: `others` have theirs left as it is. -/
theorem LeavesTasks.of_leaves {d e : Desk} {rest : Multiset Ongoing} {names : List String}
    {a : Activity} {others : List (Nat × Activity)} (task : Nat) (hne : names ≠ [])
    (hothers : J.OkTasks d.board others)
    (h : J.Leaves d (↑(tasksOngoing others) + rest) names (e, a)) :
    J.LeavesTasks d rest (names ++ tasksNames others) (e, [], (task, a) :: others) where
  sound := by
    rw [tasksOngoing, ← Multiset.coe_add, Multiset.add_assoc]
    exact h.sound
  extend := h.extend
  right r hr := absurd hr List.not_mem_nil
  ok := by
    refine ⟨⟨fun hnil => hne ?_, h.ok⟩, OkTasks.mono J h.extend hothers⟩
    have hnames := h.names
    rw [hnil] at hnames
    exact hnames.nil_eq.symm
  names := (h.names.append_right _).symm

/-- The turn of one of several tasks, which then is over or is not. -/
theorem leavesTasks_poll {d : Desk} {rest : Multiset Ongoing} {task : Nat} {a : Activity}
    {others : List (Nat × Activity)} (hne : a.names ≠ []) (hothers : J.OkTasks d.board others)
    (h : J.Leaves d (↑(tasksOngoing others) + rest) a.names (Run.poll s d a)) :
    J.LeavesTasks d rest (tasksNames ((task, a) :: others)) (match Run.poll s d a with
      | (d, .finished yield) => (d, yield.contained a.names, others)
      | (d, a) => (d, [], (task, a) :: others)) := by
  obtain ⟨⟨e, out⟩, hpoll⟩ : ∃ out, Run.poll s d a = out := ⟨_, rfl⟩
  rw [hpoll] at h ⊢
  have hworking := LeavesTasks.of_leaves task hne hothers h
  cases out with
  | finished yield =>
    cases yield with
    | panic message => exact absurd h.ok id
    | results rs =>
      have hsound : J.Sound e (0 + (↑(tasksOngoing others) + rest)) := h.sound
      rw [Multiset.zero_add] at hsound
      exact ⟨hsound, h.extend, h.ok, OkTasks.mono J h.extend hothers,
        (h.names.append_right _).symm⟩
  | spawned plan => exact hworking
  | calling o => exact hworking
  | waiting p => exact hworking
  | stepping since progressed names current rest => exact hworking
  | gathering since names collected arrived branches => exact hworking

mutual

/-- The turn of a branch within an activity keeps the activity in order. -/
theorem leaves_visit {d : Desk} {rest : Multiset Ongoing} (owner : Nat) :
    ∀ {a : Activity}, J.Sound d (↑a.ongoing + rest) → J.Ok d.board a →
      J.Leaves d rest a.names (Run.visit s d owner a)
  | .finished _, h, hok => ⟨h, .refl _, hok, List.Perm.refl _⟩
  | .spawned _, h, hok => ⟨h, .refl _, hok, List.Perm.refl _⟩
  | .calling _, h, hok => ⟨h, .refl _, hok, List.Perm.refl _⟩
  | .waiting _, h, hok => ⟨h, .refl _, hok, List.Perm.refl _⟩
  | .stepping since progressed names current others, h, hok => by
    obtain ⟨⟨step, hnames, hlast, hpre⟩, hcurrent⟩ := hok
    obtain ⟨hsound, hext, hok', hnames'⟩ := leaves_visit owner (a := current) h hcurrent
    exact ⟨hsound, hext, ⟨⟨step, hnames'.trans hnames, hlast, J.pre_mono hext hpre⟩, hok'⟩,
      List.Perm.refl _⟩
  | .gathering since names collected arrived branches, h, hok => by
    obtain ⟨hnames, hright, hbranches⟩ := hok
    obtain ⟨hsound, hext, hright', hok', hnames'⟩ := leaves_visitBranches h hbranches
    have hstill : J.Ok (Run.visitBranches s d branches).1.board
        (.gathering since names collected
          (arrived ++ (Run.visitBranches s d branches).2.1)
          (Run.visitBranches s d branches).2.2) := by
      refine ⟨?_, fun r hr => ?_, hok'⟩
      · rw [← List.append_assoc, List.map_append, List.append_assoc]
        exact hnames.trans (hnames'.append_left _)
      · rw [← List.append_assoc] at hr
        rcases List.mem_append.1 hr with hr | hr
        · exact J.right_mono hext (hright r hr)
        · exact hright' r hr
    unfold Run.visit
    show J.Leaves d rest names (if _ then _ else _, _)
    split
    · exact ⟨hsound, hext, hstill, List.Perm.refl _⟩
    · exact ⟨⟨hsound.inv, hsound.ok, hsound.cancelled⟩, hext, hstill, List.Perm.refl _⟩

theorem leaves_visitBranches {d : Desk} {rest : Multiset Ongoing} :
    ∀ {tasks : List (Nat × Activity)}, J.Sound d (↑(tasksOngoing tasks) + rest) →
      J.OkTasks d.board tasks →
      J.LeavesTasks d rest (tasksNames tasks) (Run.visitBranches s d tasks)
  | [], h, hok => ⟨h, .refl _, fun r hr => absurd hr List.not_mem_nil, hok, List.Perm.refl _⟩
  | (task, a) :: others, h, ⟨⟨hne, hok⟩, hothers⟩ => by
    rw [tasksOngoing, ← Multiset.coe_add, Multiset.add_assoc] at h
    unfold Run.visitBranches
    split
    · exact leavesTasks_poll hne hothers (leaves_poll h hok)
    · -- the calls of the one that was visited and of those to be visited change places in `rest`
      have hvisit := leaves_visit task h hok
      have hsound := hvisit.sound
      rw [add_left_comm] at hsound
      have hrest := leaves_visitBranches hsound (OkTasks.mono J hvisit.extend hothers)
      refine ⟨?_, hvisit.extend.trans hrest.extend, hrest.right, ⟨⟨?_, ?_⟩, hrest.ok⟩, ?_⟩
      · show J.Sound _ (↑(Activity.ongoing _ ++ tasksOngoing _) + rest)
        rw [← Multiset.coe_add, Multiset.add_assoc, add_left_comm]
        exact hrest.sound
      · exact fun hnil => hne (hvisit.names.symm.trans (List.Perm.of_eq hnil)).eq_nil
      · exact Ok.mono J hrest.extend hvisit.ok
      · exact (hvisit.names.symm.append hrest.names).trans (List.perm_append_comm_assoc _ _ _)

end

/-- The turn of a task that was given up, or of a branch within such tasks. -/
theorem leaves_visitGivenUp {d : Desk} {rest : Multiset Ongoing} :
    ∀ {tasks : List (Nat × Activity)}, J.Sound d (↑(tasksOngoing tasks) + rest) →
      J.OkTasks d.board tasks → (tasks ≠ [] → d.board.cancelled = true) →
      J.LeavesTasks d rest (tasksNames (Run.visitGivenUp s d tasks).2)
        ((Run.visitGivenUp s d tasks).1, [], (Run.visitGivenUp s d tasks).2)
  | [], h, hok, _ => ⟨h, .refl _, fun r hr => absurd hr List.not_mem_nil, hok, List.Perm.refl _⟩
  | (task, a) :: others, h, ⟨⟨hne, hok⟩, hothers⟩, hcancelled => by
    have hcancelled := hcancelled (List.cons_ne_nil _ _)
    rw [tasksOngoing, ← Multiset.coe_add, Multiset.add_assoc] at h
    unfold Run.visitGivenUp
    split
    · obtain ⟨hsound, hext⟩ := sound_drop h hok hcancelled
      exact ⟨hsound, hext, fun r hr => absurd hr List.not_mem_nil, OkTasks.mono J hext hothers,
        List.Perm.refl _⟩
    · have hvisit := leaves_visit task h hok
      have hsound := hvisit.sound
      rw [add_left_comm] at hsound
      have hrest := leaves_visitGivenUp hsound (OkTasks.mono J hvisit.extend hothers)
        fun _ => hvisit.extend.cancelled hcancelled
      refine ⟨?_, hvisit.extend.trans hrest.extend, hrest.right, ⟨⟨?_, ?_⟩, hrest.ok⟩,
        List.Perm.refl _⟩
      · show J.Sound _ (↑(Activity.ongoing _ ++ tasksOngoing _) + rest)
        rw [← Multiset.coe_add, Multiset.add_assoc, add_left_comm]
        exact hrest.sound
      · exact fun hnil => hne (hvisit.names.symm.trans (List.Perm.of_eq hnil)).eq_nil
      · exact Ok.mono J hrest.extend hvisit.ok

end Discipline

end Gateway
