import Gateway.Proofs.Endpoint.Agreement
import Gateway.Proofs.Graph.Acceptance
import Gateway.Proofs.Run.Receipts

/-!
# Gateway.Proofs.Endpoint.Publication — all results are there when the answer is made

Results are published as the plan goes on: those of a step when the step is complete, those of the
plan at its end. When the answer is made there is one for every producer of the graph, whichever of
them failed or were skipped. What the call of a producer came to is never shadowed by a report that
it was skipped, so a response with an unexpected status can be read beside its failure.

This last point is where something could be lost. The map takes the first result of a name, and a
producer can have two kinds: what its own call came to, and the report that it was skipped, made by a
sequence in its stead. If the report came first the response would be gone. It cannot, because
whoever is called is called with good results of all it depends on, and only somebody with a failed
dependency is skipped (`get?_of_settled`).

That the map is full is no matter of counting. It is shown that each name of the map belongs to a
producer that is done, that each producer is done in the end, and that no name is there twice. A result
that is published under a wrong name, or for a producer that was never looked at, would break one of
these three.

`Board.Recorded` says what was published in terms of the reply: it is the outcome of the one answered
call, for the status that the producer expected. The receipts are mentioned too, since the places of a
producer must have been given that same result, but nothing is defined by them.
-/

set_option autoImplicit false

namespace Gateway

/-- A producer that expects the status 200. -/
def Producer.strict (id : Nat) (name : String) : Producer :=
  { Producer.plain id name with attributes := { expectedStatus := some (.literal (.ofNat 200)) } }

namespace ResultMap

/-- The map knows these names and no others, and holds one result for each. -/
structure Full (m : ResultMap) (declared : List String) : Prop where
  nodup : declared.Nodup
  names : m.names.Perm declared
  once : (m.completed.map (·.name)).Perm declared
  get? : ∀ name ∈ m.names, (m.get? name).isSome

end ResultMap

/-- The one call of a producer was answered. What it came to is published, was handed to every place
of the producer, and can be read if there is a response, whatever the status. -/
def Board.Recorded (s : Setting) (b : Board) (m : ResultMap) (p : Producer) : Prop :=
  ∃ before after expected request r, b.Answered s p before after expected request ∧
    r = Run.outcome s.client after p expected request (s.reply p request).ending ∧
    m.get? p.name = some r ∧ ⟨p, r⟩ ∈ b.receipts ∧
    (∀ x ∈ b.receipts, x.producer = p → x.result = r) ∧
    ∀ response edited, (s.reply p request).ending = .response response →
      p.editResponse s.client after request response = .ok edited →
      ∀ current keys,
        (Context.build s.client m current).lookup
            ⟨Variable.backendResponses.name, p.name :: keys⟩
          = .ok (Context.follow edited.value keys)

/-- The response that a producer edited is part of the result, whether or not its status was
expected. -/
theorem Run.response_outcome {client : ClientRequest} {m : ResultMap} {p : Producer}
    {expected : List Nat} {request : BackendRequest} {response edited : Response}
    (h : p.editResponse client m request response = .ok edited) :
    (outcome client m p expected request (.response response)).response = some edited := by
  simp only [outcome, Producer.conclude, h]
  split <;> rfl

namespace Ensemble.Settled

variable {E : Ensemble} {s : Setting} {names : List String} {b : Board} {rs : List ProducerResult}
  {p : Producer} {r : ProducerResult}

/-- Whoever was called is not skipped, so what is published is what the call came to. -/
theorem get?_of_settled (h : E.Settled s names b rs) (hcovered : E.Covered names) (hp : p ∈ E)
    (hcell : b.cells p.id = some (.settled r)) :
    (b.publish rs).results.get? p.name = some r := by
  obtain ⟨r', hget, hcame⟩ := h.exists_published hcovered hp
  cases hcame with
  | settled hcell' =>
    cases hcell.symm.trans hcell'
    exact hget
  | skipped hd hfailed =>
    -- its cell is settled, so it saw its dependencies, none of which had failed
    have hsights := h.sheet.sightsOf_ne_nil h.live hp hcell
    have hfine := h.sheet.fine_of_sightsOf hp hsights hd
    exact absurd hfailed (h.sheet.not_failed_of_fine h.live hfine)

theorem recorded (h : E.Settled s names b rs) (hcovered : E.Covered names)
    (hhanded : b.Handed E.toRoster) (hp : p ∈ E) (hcalls : b.callsOf p ≠ []) :
    b.Recorded s (b.publish rs).results p := by
  obtain ⟨r, hcell⟩ := h.sheet.exists_settled h.live (h.done p hp) hcalls
  have hget := h.get?_of_settled hcovered hp hcell
  obtain ⟨hreceipt, hreceipts⟩ := h.sheet.told hhanded hp hcell
  cases h.sheet.ledger.tells_of_live h.live hp hcell with
  | declined _ hnone => exact absurd hnone hcalls
  | @answered before after expected request start hsights hcall hprepare =>
    refine ⟨before, after, expected, request, _, ⟨hsights, ⟨start, hcall⟩, hprepare⟩, rfl, hget,
      hreceipt, hreceipts, ?_⟩
    -- the variables hold the response of a result, whether or not the result has a failure
    intro response edited hending hedit current keys
    have hlookup := Context.lookup_producer h.sheet_publish.unique.1 s.client current p.name keys
    rw [hget, hending, Option.bind_some, Run.response_outcome hedit] at hlookup
    exact hlookup.1

theorem mem_names_completed (h : E.Settled s names b rs) (hcovered : E.Covered names)
    {name : String} :
    name ∈ (b.publish rs).results.completed.map (·.name) ↔ ∃ p ∈ E, p.name = name := by
  simp only [List.mem_map, (b.publish rs).results.completed_perm.mem_iff]
  constructor
  · rintro ⟨r, hr, rfl⟩
    obtain ⟨p, hp, hname, -⟩ := (h.sheet_publish.published r hr).done h.live
    exact ⟨p, hp, hname⟩
  · rintro ⟨p, hp, rfl⟩
    obtain ⟨r, hget, -⟩ := h.exists_published hcovered hp
    exact ⟨r, ResultMap.mem_published_of_get? hget⟩

end Ensemble.Settled

namespace Graph

variable {g : Graph} {s : Setting} {cancelled : Bool} {b : Board} {rs : List ProducerResult}

/-- A run knows the names of the producers of its graph. -/
theorem Sound.names_fresh (h : g.Sound) (cancelled : Bool) :
    (Board.fresh g.plan cancelled).results.names.Perm (g.producers.map (·.name)) := by
  have hnodup : (Board.fresh g.plan cancelled).results.names.Nodup := nodup_eraseDups _
  rw [List.perm_ext_iff_of_nodup hnodup h.names]
  intro name
  simp only [Board.fresh, Board.ofPlan, ResultMap.ofNames, List.mem_eraseDups, List.mem_map,
    Plan.mem_producers h.mem_calls]
  rfl

/-- In a schedule that comes to results everything that settled a cell was handed out. -/
theorem Sound.handed (h : g.Sound) (hb : g.plan.ComesTo s cancelled b rs) :
    b.Handed h.ensemble.toRoster ∧ b.results.names.Perm (g.producers.map (·.name)) := by
  obtain ⟨⟨w, hw, rfl, -⟩, -⟩ := hb
  have hfresh : (Board.fresh g.plan cancelled).Handed h.ensemble.toRoster := by
    intro p hp r hcell
    simp only [Board.fresh, Board.ofPlan] at hcell
    split at hcell <;> cases hcell
  obtain ⟨hopening, -, -⟩ := Discipline.kept_opening
    (J := h.ensemble.receipted s (Board.fresh g.plan cancelled).results.names)
    ⟨h.sheet_fresh s cancelled, hfresh, rfl⟩ (h.may_plan _)
  obtain ⟨hkept, -, -⟩ := hopening.leads (Ensemble.patient_receipted h.ensemble s _) hw
  obtain ⟨-, hhanded, hnames⟩ := hkept.inv
  exact ⟨hhanded, hnames ▸ h.names_fresh cancelled⟩

theorem Sound.full (h : g.Sound) (hb : g.plan.ComesTo s cancelled b rs) :
    (b.publish rs).results.Full (g.producers.map (·.name)) := by
  have hrun := h.settled hb
  have hnames : (b.publish rs).results.names.Perm (g.producers.map (·.name)) := by
    rw [(b.extends_publish rs).names]
    exact (h.handed hb).2
  refine ⟨h.names, hnames, ?once, ?get?⟩
  -- the announced names are among those that were completed, and neither list has a name twice
  case once =>
    rw [List.perm_ext_iff_of_nodup hrun.sheet_publish.unique.1.nodup_completed h.names]
    intro name
    rw [hrun.mem_names_completed h.covered, List.mem_map]
    rfl
  case get? =>
    intro name hname
    obtain ⟨p, hp, rfl⟩ := List.mem_map.1 (hnames.mem_iff.1 hname)
    obtain ⟨r, hget, -⟩ := hrun.exists_published h.covered hp
    rw [hget]
    rfl

/-- A run that is not cancelled and has an outcome is a schedule that comes to results. -/
theorem Sound.comesTo_of_run (h : g.Sound) {yield : Yield}
    (hlive : (g.plan.run s (.fresh g.plan cancelled)).board.cancelled = false)
    (hyield : (g.plan.run s (.fresh g.plan cancelled)).outcome = .finished yield) :
    ∃ rs, yield = .results rs ∧
      g.plan.ComesTo s cancelled (g.plan.run s (.fresh g.plan cancelled)).board rs := by
  obtain ⟨w, -, hw, -, hboard, hroot, -⟩ := Work.run_eq s (.fresh g.plan cancelled) g.plan
  replace hroot := hroot yield hyield
  have hok := (h.kept_of_leads hw).root
  rw [hroot] at hok
  cases yield with
  | panic message => exact hok.elim
  | results rs => exact ⟨rs, rfl, ⟨w, hw, hboard.symm, hroot⟩, hlive⟩

end Graph

namespace Endpoint

variable {e : Endpoint} {c : Circumstances} {r edited : ClientRequest}

/-- Whenever the plan of an endpoint comes to results without being cancelled, and these are
published, there is exactly one result for each of the declared producers, and what the calls came to
is among them. A request is answered after such a schedule, and from what is published then: the
answer of a run that is not cancelled and ends is made so, and a run ends unless a backend never
replies. -/
theorem published_when_answered {declared : List Producer}
    (hbuild : Graph.build declared = .ok e.graph) (hadmitted : e.admitted r = .ok edited) :
    (∀ b rs, e.graph.plan.ComesTo (c.setting edited) c.cancelled b rs →
      (b.publish rs).results.Full (declared.map (·.name)) ∧
        ∀ p ∈ e.graph.producers, b.callsOf p ≠ [] →
          b.Recorded (c.setting edited) (b.publish rs).results p) ∧
    ((e.run c edited).board.cancelled = false →
      ∀ yield, (e.run c edited).outcome = .finished yield → ∃ rs, yield = .results rs ∧
        e.graph.plan.ComesTo (c.setting edited) c.cancelled (e.run c edited).board rs ∧
        (e.serve c r).1 =
          served (e.answer edited ((e.run c edited).board.publish rs).results rs)) ∧
    (e.Undisturbed c r → ∃ rs, (e.run c edited).outcome = .finished (.results rs)) := by
  have hsound := Graph.sound_of_build hbuild
  have hnames : e.graph.producers.map (·.name) = declared.map (·.name) := by
    rw [(Graph.build_eq_ok hbuild).1, Graph.names_numbered]
  refine ⟨?schedules, ?served, ?ends⟩
  -- the declared producers and those of the graph bear the same names
  case schedules =>
    intro b rs hb
    constructor
    · rw [← hnames]
      exact hsound.full hb
    · intro p hp hcalls
      exact (hsound.settled hb).recorded hsound.covered (hsound.handed hb).1 hp hcalls
  -- serving looks at the cancellation once more, after the results were published
  case served =>
    intro hlive yield hyield
    rw [run_eq] at hlive hyield
    obtain ⟨rs, rfl, hcomes⟩ := hsound.comesTo_of_run hlive hyield
    refine ⟨rs, rfl, hcomes, ?_⟩
    have hlive' : ((e.run c edited).board.publish rs).cancelled = false := hlive
    rw [serve_eq, hadmitted]
    simp only [conclude, run_eq, hyield] at hlive' ⊢
    simp only [hlive']
    cases e.answer edited _ rs <;> rfl
  case ends =>
    intro hundisturbed
    obtain ⟨rs, hcomplete⟩ := hundisturbed.complete hsound hadmitted
    exact ⟨rs, hcomplete.outcome⟩

/-- The endpoint of a producer that expects the status 200, and of another that reads its response.
It answers with the status that there was. -/
def report : Endpoint where
  pattern := "/"
  graph :=
    { producers := [.strict 0 "first", .reading 1 "second" "first"]
      deps := [[], [0]]
      nodes := [.call (.reading 1 "second" "first"), .call (.strict 0 "first"), .sequence [1, 0],
        .parallel [2]]
      root := 3 }
  template :=
    some { body := some (.reference ⟨Variable.backendResponses.name, ["first", "status"]⟩) }

/-- A response with another status can be read, and there is a result of the second producer, which
was skipped. -/
theorem published_when_unexpected :
    let c : Circumstances := { backends := fun _ _ _ => { ending := .response { status := 404 } } }
    let ended := report.run c .plain
    let rs : List ProducerResult := [.failed "second" (.unexpectedStatus "first" 404)]
    Graph.build [.strict 0 "first", .reading 1 "second" "first"] = .ok report.graph ∧
      report.admitted .plain = .ok .plain ∧ ended.board.cancelled = false ∧
      ended.outcome = .finished (.results rs) ∧
      (ended.board.publish rs).results.Full ["first", "second"] ∧
      (Context.build .plain (ended.board.publish rs).results none).lookup
        ⟨Variable.backendResponses.name, ["first", "status"]⟩ = .ok (.ofNat 404) := by
  intro c ended rs
  have hbuild : Graph.build [.strict 0 "first", .reading 1 "second" "first"] =
      .ok report.graph := by cbv
  have hadmitted : report.admitted .plain = .ok .plain := rfl
  have hlive : (report.run c .plain).board.cancelled = false := by cbv
  have hyield : (report.run c .plain).outcome = .finished (.results rs) := by cbv
  have hcalls : (report.run c .plain).board.callsOf (.strict 0 "first") ≠ [] := by
    cbv
    simp
  obtain ⟨hpublished, hrun, -⟩ := published_when_answered (c := c) hbuild hadmitted
  obtain ⟨rs', heq, hcomes, -⟩ := hrun hlive _ hyield
  cases heq
  obtain ⟨hfull, hrecorded⟩ := hpublished _ _ hcomes
  have hfirst := hrecorded (.strict 0 "first") List.mem_cons_self hcalls
  obtain ⟨before, after, expected, request, r, -, -, -, -, -, hread⟩ := hfirst
  have hstatus := hread { status := 404 } { status := 404 } rfl rfl none ["status"]
  exact ⟨hbuild, hadmitted, hlive, hyield, hfull, hstatus⟩

end Endpoint

end Gateway
