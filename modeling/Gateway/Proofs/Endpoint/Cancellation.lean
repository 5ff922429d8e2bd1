import Gateway.Proofs.Endpoint.Agreement
import Gateway.Proofs.Run.Cut

/-!
# Gateway.Proofs.Endpoint.Cancellation — requests that are cancelled

A request that is cancelled before the plan of its endpoint is through is refused, whatever the
producers came to. No call begins after the cancellation, those that run are abandoned, and the run
ends without time passing. The cancellation may come from the client, before the run or at any time in
it, or from a backend that is called.

What is said is of two kinds, and they are proved apart. That nothing is called any more, and nothing
answered, is said of every schedule: it holds from one step to the next (`Silence`), and it does not
matter who has a turn when. That the run is over at once could not hold of every schedule, since a
schedule may let time go by with everybody waiting. There it is only said that the root is over as soon
as it has a turn. That it does have one before the time moves on is a property of the row, and needs
that the root has been woken (`Alarm`), so this half is said of the run.

The work at which a run is cut is not computed but shown to exist (`Cut`). It is what there is right
after the turn that cancelled the run, or at its beginning, and the calls of the run are those that had
been made by then, with the running ones abandoned. A client that goes away is left out of the second
half: it is told nothing.
-/

set_option autoImplicit false

namespace Gateway

open Work (Cut)

namespace Graph

variable {g : Graph} {s : Setting} {cancelled : Bool} {w : Work}

theorem Sound.exists_branches (h : g.Sound) : ∃ branches, g.plan = .parallel branches := by
  obtain ⟨plan, hplan⟩ := h.exists_plans
  exact ⟨_, hplan.root⟩

theorem lastWord_fresh {outside : Prop} (houtside : cancelled = true → outside) (s : Setting)
    (plan : Plan) : (Board.fresh plan cancelled).LastWord s outside := by
  refine ⟨fun i hi => ?_, fun hcancelled => .inl (houtside hcancelled)⟩
  obtain ⟨call, hcall, -⟩ := hi
  exact absurd (List.mem_of_getElem? hcall) List.not_mem_nil

/-- The run of an accepted graph is begun in order, with nothing on the board yet. -/
theorem Sound.opening (h : g.Sound) (s : Setting) (cancelled : Bool) :
    (h.ensemble.discipline s).Kept (Work.opening s (.fresh g.plan cancelled) g.plan) ∧
      (Work.opening s (.fresh g.plan cancelled) g.plan).OnAlert ∧
      (Work.opening s (.fresh g.plan cancelled) g.plan).board = .fresh g.plan cancelled := by
  obtain ⟨branches, hplan⟩ := h.exists_branches
  refine ⟨h.kept_of_leads .refl, ?_⟩
  rw [hplan]
  exact ⟨Work.alert_opening _ branches, Work.board_opening s _ branches⟩

/-- In every schedule of an accepted graph a call whose backend cancels is the last one. After a
cancellation nothing happens to the calls but that some are abandoned, and the root is over as soon
as it has a turn. -/
theorem Sound.cancelled_of_leads (h : g.Sound)
    (hw : (Work.opening s (.fresh g.plan cancelled) g.plan).Leads s w) :
    (∀ i, w.board.Cancels s i → w.board.cancelled = true ∧ i + 1 = w.board.calls.length) ∧
      (w.board.cancelled = true → (w.take s .root).root.isFinished = true ∧
        ∀ v, w.Leads s v → w.board.Abandons v.board) := by
  obtain ⟨-, halert, -⟩ := h.opening s cancelled
  have hfresh : (Board.fresh g.plan cancelled).LastWord s True :=
    lastWord_fresh (fun _ => trivial) s g.plan
  have hword := Work.lastWord_of_leads (fun _ => trivial) (fun _ => trivial)
    (Work.lastWord_opening hfresh g.plan) hw
  refine ⟨hword.last, fun hcancelled => ⟨?_, fun v hv => ?_⟩⟩
  · exact Work.isFinished_take_root (Work.gathers_of_leads halert.gathers hw) hcancelled
  · exact (Work.abandons_of_leads hcancelled hv).2

/-- What comes of a run that is cancelled: it is over at the same time, and what ran is abandoned. -/
theorem Sound.run_of_ending (h : g.Sound) (hw : w.Ending (h.ensemble.discipline s))
    (hfinish : w.finish s = (Work.opening s (.fresh g.plan cancelled) g.plan).finish s) :
    let ended := g.plan.run s (.fresh g.plan cancelled)
    (∃ rs, ended.outcome = .finished (.results rs)) ∧ ended.board.cancelled = true ∧
      ended.board.now = w.board.now ∧ ended.calls = w.board.calls.map Call.cutOff := by
  obtain ⟨hfinished, hsubsides, hresults⟩ := hw.finish
  obtain ⟨hsettled, hsubsides', hnone⟩ := hfinished.settle
  have hledger := hsettled.kept.inv.ledger
  rw [hnone] at hledger
  -- settling the rest cuts off whatever still runs, and nothing else happens to the calls
  have hcalls := (hsubsides.trans hsubsides').calls_eq fun call hcall => hledger.not_running hcall
  have hcancelled := hfinished.cancelled
  have hnow := hsubsides.now
  rw [hfinish] at hresults hcancelled hcalls hnow
  exact ⟨hresults, hcancelled, hnow, hcalls⟩

/-- A run that is cancelled in the end, and not dropped, was cut off at some time. -/
theorem Sound.exists_cut (h : g.Sound)
    (hend : (g.plan.run s (.fresh g.plan cancelled)).board.cancelled = true)
    (hout : (g.plan.run s (.fresh g.plan cancelled)).outcome ≠ .dropped) :
    ∃ w, Cut s (.fresh g.plan cancelled) g.plan w ∧ w.Ending (h.ensemble.discipline s) ∧
      w.finish s = (Work.opening s (.fresh g.plan cancelled) g.plan).finish s := by
  obtain ⟨hkept, halert, hboard⟩ := h.opening s cancelled
  cases hbefore : (Work.opening s (.fresh g.plan cancelled) g.plan).board.cancelled with
  | true =>
    have hcancelled : (Board.fresh g.plan cancelled).cancelled = true := hboard ▸ hbefore
    exact ⟨_, .before hcancelled hboard, ⟨hkept, halert, hbefore⟩, rfl⟩
  | false =>
    exact Work.exists_cut (Ensemble.patient_discipline h.ensemble s)
      (lastWord_fresh (fun _ => trivial) s _) .refl hkept halert hbefore hend hout

/-- A run that is to be cancelled at some time is over by then. -/
theorem Sound.finished_inTime (h : g.Sound) {time : Nat} (hcancel : s.cancelAt = some time)
    (hout : (g.plan.run s (.fresh g.plan cancelled)).outcome ≠ .dropped) :
    (∃ rs, (g.plan.run s (.fresh g.plan cancelled)).outcome = .finished (.results rs)) ∧
      (g.plan.run s (.fresh g.plan cancelled)).board.now ≤ time := by
  obtain ⟨hkept, halert, hboard⟩ := h.opening s cancelled
  have hnow : (Work.opening s (.fresh g.plan cancelled) g.plan).board.now = 0 := by
    rw [hboard]
    rfl
  refine Work.finish_inTime (Ensemble.patient_discipline h.ensemble s) hcancel hkept halert ?_ ?_ hout
  · refine fun _ => ⟨hnow ▸ Nat.zero_le _, fun _ => Work.mem_after (.inl ?_)⟩
    show _ ∈ if s.cancelAt.isSome then _ else _
    rw [hcancel]
    exact List.mem_singleton_self _
  · exact hnow ▸ Nat.zero_le _

end Graph

namespace Endpoint

variable {e : Endpoint} {c : Circumstances} {r edited : ClientRequest}

/-- Backends that answer all calls, and a client that is patient, leave a request undisturbed. -/
theorem undisturbed_of_patient (hs : (c.setting r).Answering) (hlive : c.cancelled = false)
    (hcancel : c.cancelAt = none) (hdrop : c.dropAt = none) : e.Undisturbed c r := by
  refine ⟨hs, fun edited _ => ?_⟩
  obtain ⟨w, -, hw, -, hboard, -⟩ :=
    Work.run_eq (c.setting edited) (.fresh e.graph.plan c.cancelled) e.graph.plan
  have hfresh : (Board.fresh e.graph.plan c.cancelled).LastWord (c.setting edited) False :=
    Graph.lastWord_fresh (fun h => absurd h (ne_true_of_eq_false hlive)) _ _
  have hnone : ∀ time : Option Nat, time = none → time.isSome = true → False := by
    rintro _ rfl hsome
    cases hsome
  have hword : w.board.LastWord (c.setting edited) False :=
    Work.lastWord_of_leads (hnone _ hcancel) (hnone _ hdrop)
      (Work.lastWord_opening hfresh e.graph.plan) hw
  rw [run_eq, hboard]
  -- a cancellation has a cause, and no one is left who could be it
  by_contra hcut
  rw [Bool.not_eq_false] at hcut
  rcases hword.cause hcut with hfalse | ⟨i, call, -, hcancels⟩
  · exact hfalse
  · exact absurd hcancels (ne_true_of_eq_false (hs.steady _ _ _))

/-- A request whose plan came to results in a run that is cancelled is refused. -/
theorem serve_of_cancelled (hadmitted : e.admitted r = .ok edited)
    (hcancelled : (e.run c edited).board.cancelled = true) {rs : List ProducerResult}
    (hout : (e.run c edited).outcome = .finished (.results rs)) :
    (e.serve c r).1 = .refused (.producer .cancelled) := by
  have hpublished : ((e.run c edited).board.publish rs).cancelled = true := hcancelled
  rw [serve_eq, hadmitted]
  simp only [conclude, hout, hpublished, if_true]

theorem calls_serve (hadmitted : e.admitted r = .ok edited) :
    (e.serve c r).2 = (e.run c edited).calls := by
  rw [serve_eq, hadmitted]

/-- In whatever schedule an accepted graph is run for a request, no call begins after a cancellation
and none is answered: a call whose backend cancels is the last one, and from then on calls are
abandoned at most. The root is over as soon as it has a turn, and need not wait for one. So a run that
is to be cancelled at some time is over by then.

A request that was cancelled, by anyone, and whose client has not gone away is refused because of
that, whatever its producers came to. The run is over at the time of the cancellation. The calls that
were made before it are all that are made, and those that ran are abandoned. -/
theorem serve_cancelled {declared : List Producer} (hbuild : Graph.build declared = .ok e.graph)
    (hadmitted : e.admitted r = .ok edited) :
    let s := c.setting edited
    let b := Board.fresh e.graph.plan c.cancelled
    (∀ w, (Work.opening s b e.graph.plan).Leads s w →
      (∀ i, w.board.Cancels s i → w.board.cancelled = true ∧ i + 1 = w.board.calls.length) ∧
      (w.board.cancelled = true → (w.take s .root).root.isFinished = true ∧
        ∀ v, w.Leads s v → w.board.Abandons v.board)) ∧
    (c.cancelled = true → e.serve c r = (.refused (.producer .cancelled), [])) ∧
    ((e.run c edited).outcome ≠ .dropped →
      (∀ time, c.cancelAt = some time → (∃ rs, (e.run c edited).outcome = .finished (.results rs)) ∧
        (e.run c edited).board.now ≤ time) ∧
      ((e.run c edited).board.cancelled = true →
        (e.serve c r).1 = .refused (.producer .cancelled) ∧
        ∃ w, Cut s b e.graph.plan w ∧ (e.run c edited).board.now = w.board.now ∧
          (e.serve c r).2 = w.board.calls.map Call.cutOff)) := by
  intro s b
  have hsound := Graph.sound_of_build hbuild
  refine ⟨fun w hw => hsound.cancelled_of_leads hw, ?before, fun hout => ⟨?inTime, ?cut⟩⟩
  case before =>
    intro hcancelled
    obtain ⟨hkept, halert, hboard⟩ := hsound.opening s c.cancelled
    have hending : (Work.opening s b e.graph.plan).Ending (hsound.ensemble.discipline s) :=
      ⟨hkept, halert, hboard ▸ hcancelled⟩
    obtain ⟨⟨rs, hresults⟩, hend, -, hcalls⟩ := hsound.run_of_ending hending rfl
    have hnone : (e.run c edited).calls = [] := by
      refine Eq.trans hcalls ?_
      rw [hboard]
      rfl
    exact Prod.ext (serve_of_cancelled hadmitted hend hresults)
      ((calls_serve hadmitted).trans hnone)
  case inTime => exact fun time htime => hsound.finished_inTime (s := s) htime hout
  case cut =>
    intro hend
    obtain ⟨w, hcut, hending, hfinish⟩ := hsound.exists_cut (s := s) hend hout
    obtain ⟨⟨rs, hresults⟩, -, hnow, hcalls⟩ := hsound.run_of_ending hending hfinish
    exact ⟨serve_of_cancelled hadmitted hend hresults, w, hcut, hnow,
      (calls_serve hadmitted).trans hcalls⟩

/-- Of two calls one never ends, and the other has an answer at once and cancels the run. -/
theorem serve_cancelled_of_hanging :
    let c : Circumstances :=
      { backends := fun p _ _ =>
          { ending := .response { status := 200 }
            delay := if p.id = 0 then none else some 0
            cancels := p.id = 1 } }
    Graph.build [.plain 0 "first", .plain 1 "second"] = .ok summary.graph ∧
      summary.admitted .plain = .ok .plain ∧
      (summary.run c .plain).outcome ≠ .dropped ∧
      (summary.run c .plain).board.cancelled = true ∧
      (summary.serve c .plain).1 = .refused (.producer .cancelled) ∧
      (summary.serve c .plain).2.map (·.state) = [.abandoned, .answered] := by
  intro c
  have hbuild : Graph.build [.plain 0 "first", .plain 1 "second"] = .ok summary.graph := by cbv
  have hadmitted : summary.admitted .plain = .ok .plain := rfl
  have hcancelled : (summary.run c .plain).board.cancelled = true := by cbv
  have hout : (summary.run c .plain).outcome ≠ .dropped := by
    cbv
    simp
  obtain ⟨-, -, hrun⟩ := serve_cancelled (c := c) hbuild hadmitted
  obtain ⟨hrefused, -⟩ := (hrun hout).2 hcancelled
  exact ⟨hbuild, hadmitted, hout, hcancelled, hrefused, by cbv⟩

end Endpoint

end Gateway
