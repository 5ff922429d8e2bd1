import Gateway.Proofs.Graph.Sight
import Gateway.Proofs.Run.Prompt

/-!
# Gateway.Proofs.Graph.Schedule — the schedule of a graph

A run of an accepted graph that is not cancelled is on the schedule of the graph, whatever the
backends reply and however late: nothing is called before all it depends on has ended, nor any
later, and nothing is called twice, left out or cut short.

The schedule is one of the declared graph, not of the plan. `needs` are the dependencies that were
declared, also those that the plan has no edge for because others imply them, and whether a producer
looks at results is decided by what is published of its needs. A plan that had forgotten a dependency
would run, and quickly too; it would not be on this schedule.

It is proved twice over. `scheduled_of_build` is about the run that a plan has, in which the row is
served first come, first served. `scheduled_of_prompt` is about all prompt runs: the order in which
those who are ready have their turns decides nothing about times. What it cannot do without is
promptness, which is why it is not said of all schedules, as most is that is said of a board: where the
clock may move on while somebody is ready, calls are late.

The requests that are sent have to be answered some time (`Setting.Answering`). A call that is never
answered never ends, and with it the run.
-/

set_option autoImplicit false

namespace Gateway

namespace Graph

variable {g : Graph} {s : Setting}

theorem Sound.covered (h : g.Sound) : h.ensemble.Covered g.plan.names := by
  intro p hp
  obtain ⟨t, ht, hid, hunder⟩ := h.exists_terminal hp
  exact ⟨t, ht, h.mem_names.2 ⟨t, ht, hid, rfl⟩, hunder⟩

theorem calm_fresh (plan : Plan) : (Board.fresh plan false).Calm where
  live := rfl
  kept id task line h := by
    have hcell : (if plan.producers.any (·.id = id) then some Cell.vacant else none) =
        some (.offered task line) := h
    split at hcell <;> cases hcell

theorem Sound.course_opening (h : g.Sound) (hs : s.Answering) :
    h.ensemble.Course s g.plan.names (.opening s (.fresh g.plan false) g.plan) := by
  obtain ⟨hkept, -, hnames⟩ := Discipline.kept_opening (J := h.ensemble.timed s)
    ⟨h.sheet_fresh s false, fun _ => ⟨_, .fresh h.ensemble s g.plan false⟩⟩ (h.may_plan _)
  exact ⟨hkept, fun _ => Work.awake_opening hs (calm_fresh g.plan) g.plan, hnames⟩

/-- A run of the plan of a sound graph that is not cancelled completes. -/
theorem Sound.complete (h : g.Sound) (hs : s.Answering)
    (hlive : (g.plan.run s (.ofPlan g.plan)).board.cancelled = false) :
    ∃ rs, h.ensemble.Complete s g.plan.names (g.plan.run s (.ofPlan g.plan)) rs :=
  (h.course_opening hs).complete hs h.covered hlive

theorem Sound.not_cancelled_of_run (h : g.Sound) {cancelled : Bool}
    (hlive : (g.plan.run s (.fresh g.plan cancelled)).board.cancelled = false) :
    cancelled = false := by
  obtain ⟨w, -, hw, -, hboard, -⟩ := Work.run_eq s (.fresh g.plan cancelled) g.plan
  obtain ⟨hkept, hext, -⟩ := Discipline.kept_opening (J := h.ensemble.discipline s)
    (h.sheet_fresh s cancelled) (h.may_plan _)
  obtain ⟨-, hstays, -⟩ := hkept.leads (Ensemble.patient_discipline h.ensemble s) hw
  rw [hboard] at hlive
  cases cancelled with
  | false => rfl
  | true => exact absurd (hstays (hext.cancelled rfl)) (ne_true_of_eq_false hlive)

/-- When a plan has come to results on time, all its producers were on schedule. -/
theorem Sound.scheduled_of_settled (h : g.Sound) {names : List String} {b : Board}
    {rs : List ProducerResult} (hsettled : h.ensemble.Settled s names b rs)
    (htimes : ∃ ends, h.ensemble.Timing s b 0 ends) :
    (∃ ends, (∀ p ∈ g.producers, b.Scheduled s ends (g.needs p) p) ∧
        b.now = latest ends g.producers) ∧
      ∀ call ∈ b.calls, call.producer ∈ g.producers ∧ call.state = .answered := by
  obtain ⟨ends, htiming⟩ := htimes
  have hscheduled : ∀ p ∈ g.producers, b.Scheduled s ends (g.needs p) p := fun p hp =>
    hsettled.sheet.scheduled htiming hsettled.live (hsettled.done p hp)
  refine ⟨⟨ends, hscheduled, (htiming.last hsettled.done).symm⟩, fun call hcall => ?_⟩
  have hp := hsettled.sheet.ledger.entries call hcall
  exact ⟨hp, (hscheduled _ hp).answered (List.mem_filter.2 ⟨hcall, decide_eq_true rfl⟩)⟩

/-- The run of an accepted graph, unless it is cancelled, finishes with results when the last of its
producers ends. Each of these is on schedule, and every call was answered by then. -/
theorem scheduled_of_build {declared : List Producer} (h : build declared = .ok g)
    (hs : s.Answering) (hlive : (g.plan.run s (.ofPlan g.plan)).board.cancelled = false) :
    let e := g.plan.run s (.ofPlan g.plan)
    (∃ rs, e.outcome = .finished (.results rs)) ∧
      (∃ ends, (∀ p ∈ g.producers, e.board.Scheduled s ends (g.needs p) p) ∧
        e.board.now = latest ends g.producers) ∧
      e.calls = e.board.calls ∧
      ∀ call ∈ e.calls, call.producer ∈ g.producers ∧ call.state = .answered := by
  obtain ⟨rs, hcomplete⟩ := (sound_of_build h).complete hs hlive
  obtain ⟨hends, hanswered⟩ :=
    (sound_of_build h).scheduled_of_settled hcomplete.toSettled hcomplete.timing
  exact ⟨⟨rs, hcomplete.outcome⟩, hends, hcomplete.calls, hcomplete.calls.symm ▸ hanswered⟩

/-- The second of two producers is called when the first has answered after five milliseconds, and
answers itself after six. -/
theorem scheduled_of_late :
    let s : Setting :=
      { client := .plain,
        backends := fun p _ _ => { ending := .response { status := 200 }, delay := some (5 + p.id) } }
    build [.plain 0 "first", .reading 1 "second" "first"] = .ok pair ∧ s.Answering ∧
      (pair.plan.run s (.ofPlan pair.plan)).board.cancelled = false ∧
      ∃ ends, (∀ p ∈ pair.producers,
          (pair.plan.run s (.ofPlan pair.plan)).board.Scheduled s ends (pair.needs p) p) ∧
        latest ends pair.producers = 11 := by
  intro s
  have hs : s.Answering := ⟨fun _ _ _ => rfl, fun _ _ _ => rfl⟩
  have hlive : (pair.plan.run s (.ofPlan pair.plan)).board.cancelled = false := by cbv
  have hnow : (pair.plan.run s (.ofPlan pair.plan)).board.now = 11 := by cbv
  obtain ⟨-, ⟨ends, hscheduled, hlatest⟩, -⟩ := scheduled_of_build build_pair hs hlive
  exact ⟨build_pair, hs, hlive, ends, hscheduled, hlatest.symm.trans hnow⟩

/-- It is the same whoever of those in the row has the next turn. A prompt run that is not finished goes
on, and none goes on for ever (`Work.wellFounded_prompt`); when it is finished it has come to results,
at the end of the last producer, with all producers on schedule and all calls answered. -/
theorem scheduled_of_prompt {declared : List Producer} (h : build declared = .ok g)
    (hs : s.Answering) {w : Work} (hw : (Work.opening s (.ofPlan g.plan) g.plan).Prompts s w)
    (hlive : w.board.cancelled = false) :
    (w.root.isFinished = false → ∃ v, w.Prompt s v) ∧
      ∀ yield, w.root = .finished yield → (∃ rs, yield = .results rs) ∧
        (∃ ends, (∀ p ∈ g.producers, w.board.Scheduled s ends (g.needs p) p) ∧
          w.board.now = latest ends g.producers) ∧
        ∀ call ∈ w.board.calls, call.producer ∈ g.producers ∧ call.state = .answered := by
  have hsound := sound_of_build h
  have hcourse := (hsound.course_opening hs).prompts hs hsound.covered hw
  refine ⟨hcourse.exists_prompt hs hlive, fun yield hroot => ?_⟩
  obtain ⟨⟨rs, heq, hsettled⟩, htimes⟩ := hcourse.ended hsound.covered hlive hroot
  exact ⟨⟨rs, heq⟩, hsound.scheduled_of_settled hsettled htimes⟩

end Graph

end Gateway
