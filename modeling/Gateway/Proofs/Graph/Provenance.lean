import Gateway.Proofs.Evaluation.Failing
import Gateway.Proofs.Graph.Shape
import Gateway.Proofs.Run.Receipts

/-!
# Gateway.Proofs.Graph.Provenance — where failures come from

A producer that is skipped passes on the failure of another. However long the chain of producers
that are skipped one because of the other, at its end there is one whose own request or call failed,
and what comes out is that failure: as it is if it names its producer or concerns the whole request,
and else wrapped once, by the producer that was the first to be skipped because of it.

`Fails` lists the ways in which a producer fails by itself: it cannot make its request, its backend
fails or panics, its response cannot be edited or has another status. None of them mentions another
producer. `Traced` leads from a producer to such a failure, below it in the graph, and says what
became of it on the way. It is an inductive in three cases and not a path, because only the last
wrapping leaves a trace: a failure that is wrapped is not wrapped again, and which way it took from
there on cannot be told.

It holds of schedules that have not been cancelled. After a cancellation a producer may be reported as
cancelled that did nothing wrong, and there is no source to trace this to. And it holds where no
backend fails with a failure that is wrapped to begin with (`Setting.Unnested`): one could not tell it
from a failure of the graph.
-/

set_option autoImplicit false

namespace Gateway

namespace Failure

def isSequence : Failure → Bool
  | .sequence .. => true
  | _ => false

/-- Whether producers that are skipped because of the failure pass it on as it is. -/
def isKept : Failure → Bool
  | .unexpectedStatus .. | .cancelled => true
  | _ => false

theorem inSequence_of_isKept {f : Failure} (h : f.isKept = true) (producer : String) :
    f.inSequence producer = f := by
  cases f <;> simp_all [inSequence, isDomain, isKept]

theorem inSequence_of_not_isKept {f : Failure} (h : f.isKept = false)
    (hsequence : f.isSequence = false) (producer : String) :
    f.inSequence producer = .sequence producer f := by
  cases f <;> simp_all [inSequence, isDomain, isKept, isSequence]

theorem IsLocal.isSequence_eq_false {f : Failure} (h : f.IsLocal) : f.isSequence = false := by
  cases f <;> simp_all [IsLocal, kind, isSequence]

end Failure

/-- No backend reports of itself that a producer was skipped. -/
def Setting.Unnested (s : Setting) : Prop :=
  ∀ p n request f, (s.backends p n request).ending = .failure f → f.isSequence = false

namespace Board

/-- What a producer itself failed with: its attributes, its request or its call. -/
inductive Fails (s : Setting) (b : Board) (p : Producer) : Failure → Prop
  | prepare {before : ResultMap} {f : Failure} (hsights : b.sightsOf p = [before])
      (hcalls : b.callsOf p = []) (hprepare : p.prepare s.client before = .error f) : Fails s b p f
  | backend {before after : ResultMap} {expected : List Nat} {request : BackendRequest}
      {f : Failure} (hcall : b.Answered s p before after expected request)
      (hending : (s.reply p request).ending = .failure f) : Fails s b p f
  | panic {before after : ResultMap} {expected : List Nat} {request : BackendRequest}
      {message : Option String} (hcall : b.Answered s p before after expected request)
      (hending : (s.reply p request).ending = .panic message) :
      Fails s b p (.ofPanic (panicText message))
  | edit {before after : ResultMap} {expected : List Nat} {request : BackendRequest}
      {response : Response} {fault : Fault} (hcall : b.Answered s p before after expected request)
      (hending : (s.reply p request).ending = .response response)
      (hedit : p.editResponse s.client after request response = .error fault) :
      Fails s b p (.ofFault fault)
  | status {before after : ResultMap} {expected : List Nat} {request : BackendRequest}
      {response edited : Response} (hcall : b.Answered s p before after expected request)
      (hending : (s.reply p request).ending = .response response)
      (hedit : p.editResponse s.client after request response = .ok edited)
      (hstatus : expected ≠ [] ∧ edited.status ∉ expected) :
      Fails s b p (.unexpectedStatus p.name edited.status)

variable {s : Setting} {b : Board} {p : Producer} {r : ProducerResult} {f : Failure}

/-- A result that a producer came to by itself tells its own failure. -/
theorem Tells.fails (h : b.Tells s p r) (hf : r.failure = some f) : b.Fails s p f := by
  cases h with
  | declined hsights hcalls hprepare =>
    cases hf
    exact .prepare hsights hcalls hprepare
  | @answered before after expected request start hsights hcalls hprepare =>
    have hcall : b.Answered s p before after expected request :=
      ⟨hsights, ⟨start, hcalls⟩, hprepare⟩
    cases hending : (s.reply p request).ending with
    | failure f' =>
      rw [hending] at hf
      cases hf
      exact .backend hcall hending
    | panic message =>
      rw [hending] at hf
      cases hf
      exact .panic hcall hending
    | response response =>
      rw [hending, Run.outcome, Producer.conclude] at hf
      split at hf
      · next fault hedit =>
        cases hf
        exact .edit hcall hending hedit
      · next edited hedit =>
        dsimp only at hf
        split at hf
        · cases hf
        · next hstatus =>
          cases hf
          exact .status hcall hending hedit (by simpa using hstatus)

theorem Fails.isSequence_eq_false (h : b.Fails s p f) (hs : s.Unnested) : f.isSequence = false := by
  cases h with
  | prepare _ _ hprepare =>
    exact (p.failsOnly_prepare _ _ f hprepare).isSequence_eq_false
  | backend _ hending => exact hs _ _ _ _ hending
  | panic | edit | status => rfl

/-- The results that are out: published, handed to a place, or held by some task. -/
def Out (b : Board) (held : List ProducerResult) (r : ProducerResult) : Prop :=
  r ∈ b.results.published ∨ r ∈ b.receipts.map (·.result) ∨ r ∈ held

end Board

namespace Graph

/-- Where the failure of a producer comes from: from itself, or from one that it depends on, directly
or not. The failure of that one is passed on as it is, or wrapped by a producer that directly depends
on it. -/
inductive Traced (g : Graph) (s : Setting) (b : Board) (p : Producer) : Failure → Prop
  | own {f : Failure} (hfails : b.Fails s p f) : Traced g s b p f
  | kept {root : Producer} {f : Failure} (hbelow : Relation.TransGen g.Depends p root)
      (hfails : b.Fails s root f) (hkept : f.isKept = true) : Traced g s b p f
  | wrapped {c root : Producer} {f : Failure} (hunder : Relation.ReflTransGen g.Depends p c)
      (hdepends : g.Depends c root) (hfails : b.Fails s root f) (hkept : f.isKept = false) :
      Traced g s b p (.sequence c.name f)

variable {g : Graph} {s : Setting} {b : Board} {calls : Multiset Ongoing} {p d : Producer}
  {r : ProducerResult} {f : Failure}

/-- A producer that is skipped because of a failure has one of the same source. -/
theorem Traced.inSequence (hs : s.Unnested) (hd : g.Depends p d) (h : g.Traced s b d f) :
    g.Traced s b p (f.inSequence p.name) := by
  cases h with
  | own hfails =>
    cases hkept : f.isKept with
    | true =>
      rw [Failure.inSequence_of_isKept hkept]
      exact .kept (.single hd) hfails hkept
    | false =>
      rw [Failure.inSequence_of_not_isKept hkept (hfails.isSequence_eq_false hs)]
      exact .wrapped .refl hd hfails hkept
  | kept hbelow hfails hkept =>
    rw [Failure.inSequence_of_isKept hkept]
    exact .kept (.head hd hbelow) hfails hkept
  | wrapped hunder hdepends hfails hkept => exact .wrapped (.head hd hunder) hdepends hfails hkept

/-- What is wrapped is not wrapped in turn. -/
theorem Traced.unnested (hs : s.Unnested) (h : g.Traced s b p f) {name : String} {source : Failure}
    (heq : f = .sequence name source) : source.isSequence = false := by
  cases h with
  | own hfails =>
    have hnone := hfails.isSequence_eq_false hs
    rw [heq] at hnone
    cases hnone
  | kept _ _ hkept =>
    rw [heq] at hkept
    cases hkept
  | wrapped _ _ hfails =>
    cases heq
    exact hfails.isSequence_eq_false hs

theorem Sound.traced_of_failedWith (h : g.Sound) (hs : s.Unnested)
    (hsheet : h.ensemble.Sheet s b calls) (hlive : b.cancelled = false)
    (hfailed : h.ensemble.FailedWith b p f) : g.Traced s b p f := by
  induction hfailed with
  | own hp hcell hfailure =>
    exact .own ((hsheet.ledger.tells_of_live hlive hp hcell).fails hfailure)
  | needs hp hd _ ih => exact ih.inSequence hs ((h.depends_iff hp).2 hd)

theorem Sound.exists_traced (h : g.Sound) (hs : s.Unnested) (hlive : b.cancelled = false)
    (hsheet : h.ensemble.Sheet s b calls) (hright : h.ensemble.Right b r)
    (hf : r.failure = some f) :
    ∃ p ∈ g.producers, p.name = r.name ∧ g.Traced s b p f := by
  obtain ⟨p, hp, hname, -, hcame⟩ := hright.done hlive
  exact ⟨p, hp, hname, h.traced_of_failedWith hs hsheet hlive (hcame.failedWith hp hf)⟩

theorem Sound.right_of_out (h : g.Sound) {w : Work} (hw : (h.ensemble.discipline s).Kept w)
    (hr : w.board.Out w.held r) : h.ensemble.Right w.board r := by
  rcases hr with hr | hr | hr
  · exact hw.inv.published r hr
  · obtain ⟨x, hx, rfl⟩ := List.mem_map.1 hr
    obtain ⟨hp, hcell⟩ := hw.inv.ledger.receipts x hx
    exact hw.inv.right_of_settled hp hcell
  · exact hw.right_of_mem_held hr

/-- The results at the end of a run are out in the schedule that it is. -/
theorem out_of_run {plan : Plan} {cancelled : Bool}
    (hr : ((plan.run s (.fresh plan cancelled)).board.publish
      (plan.run s (.fresh plan cancelled)).outcome.results).Out
        (plan.run s (.fresh plan cancelled)).outcome.results r) :
    ∃ w, (Work.opening s (.fresh plan cancelled) plan).Leads s w ∧
      w.board = (plan.run s (.fresh plan cancelled)).board ∧ w.board.Out w.held r := by
  obtain ⟨w, -, hw, -, hboard, hroot, -⟩ := Work.run_eq s (.fresh plan cancelled) plan
  refine ⟨w, hw, hboard.symm, ?_⟩
  -- the task of the plan holds its results until they are published
  have hheld : ∀ r ∈ (plan.run s (.fresh plan cancelled)).outcome.results, r ∈ w.held := by
    intro r hr
    apply List.mem_append_left
    cases hout : (plan.run s (.fresh plan cancelled)).outcome with
    | finished yield =>
      rw [hout] at hr
      rw [hroot yield hout]
      cases yield <;> exact hr
    | dropped | stalled =>
      rw [hout] at hr
      exact absurd hr List.not_mem_nil
  rw [hboard] at hr
  rcases hr with hr | hr | hr
  · rcases ResultMap.mem_published_publishAll hr with hr | hr
    · exact .inl hr
    · exact .inr (.inr (hheld r hr))
  · exact .inr (.inl hr)
  · exact .inr (.inr (hheld r hr))

/-- In every schedule of an accepted graph, as long as it is not cancelled, a result with a failure
that is out anywhere is that of a producer whose failure can be traced to one that failed by itself,
and the same holds of what comes out of the run of the plan. A failure is wrapped once at most. -/
theorem failures_traced {declared : List Producer} (hbuild : build declared = .ok g)
    (hs : s.Unnested) (cancelled : Bool) :
    (∀ w, (Work.opening s (.fresh g.plan cancelled) g.plan).Leads s w → w.board.cancelled = false →
      ∀ r f, w.board.Out w.held r → r.failure = some f →
        (∃ p ∈ g.producers, p.name = r.name ∧ g.Traced s w.board p f) ∧
          ∀ name source, f = .sequence name source → source.isSequence = false) ∧
    let e := g.plan.run s (.fresh g.plan cancelled)
    e.board.cancelled = false →
      ∀ r f, (e.board.publish e.outcome.results).Out e.outcome.results r → r.failure = some f →
        (∃ p ∈ g.producers, p.name = r.name ∧ g.Traced s e.board p f) ∧
          ∀ name source, f = .sequence name source → source.isSequence = false := by
  have hsound := sound_of_build hbuild
  have hall : ∀ w, (Work.opening s (.fresh g.plan cancelled) g.plan).Leads s w →
      w.board.cancelled = false → ∀ r f, w.board.Out w.held r → r.failure = some f →
        (∃ p ∈ g.producers, p.name = r.name ∧ g.Traced s w.board p f) ∧
          ∀ name source, f = .sequence name source → source.isSequence = false := by
    intro w hw hlive r f hr hf
    have hkept := hsound.kept_of_leads hw
    obtain ⟨p, hp, hname, htraced⟩ :=
      hsound.exists_traced hs hlive hkept.inv (hsound.right_of_out hkept hr) hf
    exact ⟨⟨p, hp, hname, htraced⟩, fun name source heq => htraced.unnested hs heq⟩
  refine ⟨hall, ?_⟩
  intro e hlive r f hr hf
  -- what comes out of the run was out in the schedule that the run is
  obtain ⟨w, hw, hboard, hout⟩ := out_of_run hr
  have hboard : w.board = e.board := hboard
  rw [← hboard] at hlive ⊢
  exact hall w hw hlive r f hout hf

/-- The graph of three producers, each of which reads the response of the one before it. -/
def chain : Graph where
  producers := [.plain 0 "first", .reading 1 "second" "first", .reading 2 "third" "second"]
  deps := [[], [0], [1]]
  nodes := [.call (.reading 2 "third" "second"), .call (.reading 1 "second" "first"),
    .call (.plain 0 "first"), .sequence [2, 1], .sequence [3, 0], .parallel [4]]
  root := 5

/-- The first has no answer. The third reports that, wrapped once by the second. -/
theorem failures_traced_of_chain :
    let s : Setting :=
      { client := .plain,
        backends := fun _ _ _ => { ending := .failure (.transport "first" "refused") } }
    let ended := chain.plan.run s (.fresh chain.plan false)
    let f : Failure := .sequence "second" (.transport "first" "refused")
    build [.plain 0 "first", .reading 1 "second" "first", .reading 2 "third" "second"] = .ok chain ∧
      s.Unnested ∧ ended.board.cancelled = false ∧
      ended.outcome.results = [.failed "third" f] ∧
      ∃ p ∈ chain.producers, p.name = "third" ∧ chain.Traced s ended.board p f := by
  intro s ended f
  have hbuild : build [.plain 0 "first", .reading 1 "second" "first", .reading 2 "third" "second"] =
      .ok chain := by cbv
  have hs : s.Unnested := by
    intro p n request f hending
    cases hending
    rfl
  have hlive : (chain.plan.run s (.fresh chain.plan false)).board.cancelled = false := by cbv
  have hresults : (chain.plan.run s (.fresh chain.plan false)).outcome.results =
      [.failed "third" f] := by cbv
  have hrun := (failures_traced hbuild hs false).2 hlive (.failed "third" f) f
  rw [hresults] at hrun
  have htraced := (hrun (.inr (.inr (List.mem_singleton_self _))) rfl).1
  exact ⟨hbuild, hs, hlive, hresults, htraced⟩

end Graph

end Gateway
