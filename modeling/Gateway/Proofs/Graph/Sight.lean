import Gateway.Proofs.Evaluation.Reads
import Gateway.Proofs.Graph.Ensemble
import Gateway.Proofs.Run.Guard
import Gateway.Proofs.Run.Once
import Mathlib

/-!
# Gateway.Proofs.Graph.Sight — what the producers of a graph see

Before a producer of a graph looks at results, those of the producers that it refers to have been
published, good ones, each that of the producer's own call. This holds of every schedule, whatever
fails or is cancelled, and of the dependencies that were dropped because others imply them: they
were published by whichever part of the plan came to them first.

To look is to evaluate: the board keeps, for each time that attributes were evaluated, the map that
they were evaluated with. So the statement is about these maps and not about the map in the end, in
which a result may be that came too late. `ReadsPublished` says what a traversal of a referenced
producer reads, for every way a traversal may go on, and it reads the request and the response of the
call that was made.

A producer may refer to itself on its response side. It then reads the result at hand, which is not
published yet, and is left out.
-/

set_option autoImplicit false

namespace Gateway

/-- A producer that takes its url from the response of another. -/
def Producer.reading (id : Nat) (name other : String) : Producer :=
  { Producer.plain id name with
    attributes := { url := some (.reference ⟨Variable.backendResponses.name, [other, "body"]⟩) } }

namespace Graph

variable {g : Graph} {s : Setting}

theorem Sound.sheet_fresh (h : g.Sound) (s : Setting) (cancelled : Bool) :
    h.ensemble.Sheet s (.fresh g.plan cancelled) 0 where
  ledger := .fresh h.mem_calls cancelled
  seen _ hsight := absurd hsight List.not_mem_nil
  unread _ _ hsight := absurd hsight List.not_mem_nil
  lasting _ hsight := absurd hsight List.not_mem_nil
  published _ hr := absurd hr List.not_mem_nil
  unique := ⟨List.nodup_nil, fun _ hsight => absurd hsight List.not_mem_nil⟩

theorem Sound.may_plan (h : g.Sound) (b : Board) : h.ensemble.May b g.plan :=
  ⟨fun _ => False, fun _ hq => hq.elim, h.guarded _⟩

theorem Sound.kept_of_leads (h : g.Sound) {cancelled : Bool} {w : Work}
    (hw : (Work.opening s (.fresh g.plan cancelled) g.plan).Leads s w) :
    (h.ensemble.discipline s).Kept w := by
  obtain ⟨hkept, -, -⟩ := Discipline.kept_opening (J := h.ensemble.discipline s)
    (h.sheet_fresh s cancelled) (h.may_plan _)
  exact (hkept.leads (Ensemble.patient_discipline h.ensemble s) hw).1

/-- Whenever a producer looked at results, those of the other producers of the graph that it refers to
were on the map: the good results of their own calls. So what it reads of them is their request and
their response. -/
def ReadsPublished (g : Graph) (s : Setting) (b : Board) : Prop :=
  ∀ sight ∈ b.sights, ∀ q ∈ g.producers, q.name ≠ sight.producer.name →
    sight.producer.RefersTo q.name →
    ∃ request response,
      sight.results.get? q.name = some (.success q.name request response) ∧
      b.Authentic s q (.success q.name request response) ∧
      ∀ current keys,
        (Context.build s.client sight.results current).lookup
            ⟨Variable.backendResponses.name, q.name :: keys⟩
          = .ok (Context.follow response.value keys) ∧
        (Context.build s.client sight.results current).lookup
            ⟨Variable.backendRequests.name, q.name :: keys⟩
          = .ok (Context.follow request.value keys)

theorem Sound.readsPublished (h : g.Sound) {b : Board} {calls : Multiset Ongoing}
    (hsheet : h.ensemble.Sheet s b calls) : g.ReadsPublished s b := by
  intro sight hsight q hq hne hrefers
  have hneeds : q ∈ h.ensemble.needs sight.producer :=
    (h.mem_needs_iff (hsheet.ledger.sights sight hsight)).2
      ⟨hq, Producer.mem_references_of_refersTo hrefers hne⟩
  obtain ⟨r, hget, hauthentic⟩ := hsheet.seen_authentic hsight hneeds
  obtain ⟨request, start, received, v, response, hcalls, hending, hv, hedit, rfl⟩ := hauthentic
  refine ⟨request, response, hget,
    ⟨request, start, received, v, response, hcalls, hending, hv, hedit, rfl⟩, ?_⟩
  intro current keys
  have hlookup := Context.lookup_producer (hsheet.unique.2 sight hsight) s.client current q.name keys
  rw [hget] at hlookup
  exact hlookup

/-- In every schedule of an accepted graph producers read published results only, and so they do in
the run of its plan. -/
theorem reads_after_publish {declared : List Producer} (h : build declared = .ok g)
    (s : Setting) (cancelled : Bool) :
    (∀ w, (Work.opening s (.fresh g.plan cancelled) g.plan).Leads s w →
      g.ReadsPublished s w.board) ∧
    g.ReadsPublished s (g.plan.run s (.fresh g.plan cancelled)).board := by
  have hsound := sound_of_build h
  have hall : ∀ w, (Work.opening s (.fresh g.plan cancelled) g.plan).Leads s w →
      g.ReadsPublished s w.board := fun w hw =>
    hsound.readsPublished (hsound.kept_of_leads hw).inv
  obtain ⟨w, v, hw, -, hboard, -⟩ := Work.run_eq s (.fresh g.plan cancelled) g.plan
  exact ⟨hall, hboard ▸ hall w hw⟩

/-- The graph of two producers, one of which reads the url of its request from the response of the
other. -/
def pair : Graph where
  producers := [.plain 0 "first", .reading 1 "second" "first"]
  deps := [[], [0]]
  nodes := [.call (.reading 1 "second" "first"), .call (.plain 0 "first"), .sequence [1, 0],
    .parallel [2]]
  root := 3

theorem build_pair : build [.plain 0 "first", .reading 1 "second" "first"] = .ok pair := by cbv

/-- One producer reads the response of another, which is late. -/
theorem reads_after_publish_of_late :
    let s : Setting :=
      { client := .plain,
        backends := fun _ _ _ => { ending := .response { status := 200 }, delay := some 5 } }
    build [.plain 0 "first", .reading 1 "second" "first"] = .ok pair ∧
      pair.ReadsPublished s (pair.plan.run s (.fresh pair.plan false)).board := by
  intro s
  exact ⟨build_pair, (reads_after_publish build_pair s false).2⟩

end Graph

end Gateway
