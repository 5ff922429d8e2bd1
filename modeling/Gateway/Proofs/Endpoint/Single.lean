import Gateway.Proofs.Endpoint.Agreement
import Gateway.Proofs.Endpoint.Inbound
import Gateway.Proofs.Graph.Provenance
import Gateway.Proofs.Run.Announcement

/-!
# Gateway.Proofs.Endpoint.Single — endpoints that pass a response on

An endpoint without template and redirect passes on the response of the one producer that no other
depends on. That there is one such producer is seen to when the endpoint is made. So a request comes
to one result, and either it has a failure, which is reported, or a response, which is passed on. What
a client would be told of several results, or of one with neither, no client is told.

The program has answers for these cases, and nothing in the way it is written rules them out where they
are given. So it has to be shown that the number of results is right in all circumstances, also after a
cancellation and when backends panic, where results are stubs made in a hurry. `Announcement` says so of
all plans; here it is only needed that the plan of the graph announces one name.

That a result is whole is another invariant, and a small one: whoever settles a cell with a good result
has a request and a response in it (`ProducerResult.Whole`). It is stated of every result that is out
anywhere, and not only of the one in the end, because it is the steps that keep it.

What is excluded is said of the answer, not of the results. A request may be refused with the words for
a missing result, but only if the one result that there is has failed with them.
-/

set_option autoImplicit false

namespace Gateway

/-- A result without a failure holds a request and a response. -/
def ProducerResult.Whole (x : ProducerResult) : Prop :=
  x.isOk = true → ∃ request response, x = .success x.name request response

namespace Ensemble

variable {E : Ensemble} {s : Setting} {b : Board} {calls : Multiset Ongoing} {x : ProducerResult}

theorem Right.whole (h : E.Right b x) (hsheet : E.Sheet s b calls) : x.Whole := by
  intro hok
  obtain ⟨p, hp, hname, hcell⟩ := h.own hok
  obtain ⟨request, start, received, v, response, -, -, -, -, heq⟩ :=
    hsheet.ledger.authentic hp hcell hok
  rw [hname] at heq
  exact ⟨request, response, heq⟩

mutual

/-- A guarded plan calls producers of the ensemble. -/
theorem Guarded.over {known : Producer → Prop} :
    ∀ {plan : Plan}, E.Guarded known plan → plan.Over E.producers
  | .call p, h => h.1
  | .sequence (step :: rest), ⟨hstep, hrest⟩ => by
    have hguarded : E.Guarded known step := hstep
    refine ⟨hguarded.over, ?_⟩
    by_cases hne : rest = []
    · rw [hne]
      trivial
    · -- what follows the step is the call that the sequence is for
      obtain ⟨p, rfl, hready, -⟩ := hrest.exists_call hne
      exact ⟨hready.1, trivial⟩
  | .sequence [], h => h.elim
  | .parallel branches, h => GuardedAll.over h
  | .stub .., h => h.elim

theorem GuardedAll.over {known : Producer → Prop} :
    ∀ {branches : List Plan}, E.GuardedAll known branches → Plan.OverAll E.producers branches
  | [], _ => trivial
  | _ :: _, ⟨⟨h, _⟩, hrest⟩ => ⟨Guarded.over h, GuardedAll.over hrest⟩

end

end Ensemble

namespace Graph

variable {g : Graph} {s : Setting} {cancelled : Bool} {yield : Yield}

theorem Sound.oneName (h : g.Sound) : OneName g.producers := by
  intro p hp q hq hid
  rw [h.ensemble.eq_of_id hp hq hid]

/-- A graph of some producers with one result at most has one producer that no other depends on. -/
theorem Sound.exists_only (h : g.Sound) (hne : g.producers ≠ []) (hsize : g.size ≤ 1) :
    ∃ t ∈ g.producers, (∀ p ∈ g.producers, (∀ q, ¬ g.Depends q p) ↔ p = t) ∧
      g.terminals = [t.name] ∧ g.size = 1 ∧ g.plan.names = [t.name] := by
  obtain ⟨plan, hplan⟩ := h.exists_plans
  obtain ⟨tops, hsub, htops, hids⟩ := h.exists_tops
  obtain ⟨p, hp⟩ := List.exists_mem_of_ne_nil _ hne
  obtain ⟨t, -, hterminal, -⟩ := h.exists_terminal hp
  have hlength : tops.length = g.size := by
    rw [hplan.size_root, ← hids, List.length_map]
  -- there is one at least, since the plan of every producer hangs on one
  obtain ⟨t, rfl⟩ : ∃ t, tops = [t] := by
    apply List.length_eq_one_iff.1
    have hpos : tops.length ≠ 0 := by
      intro hzero
      rw [← hids, List.eq_nil_of_length_eq_zero hzero] at hterminal
      cases hterminal
    omega
  obtain ⟨ht, htop⟩ := (htops t).1 (List.mem_singleton_self t)
  have hterminals : g.deps.terminals = [t.id] := hids.symm
  refine ⟨t, ht, ?_, ?_, hlength.symm, ?_⟩
  · intro p hp
    constructor
    · intro hnone
      exact List.mem_singleton.1 ((htops p).2 ⟨hp, hnone⟩)
    · rintro rfl
      exact htop
  · simp [Graph.terminals, namesOf, hterminals, h.place ht]
  · simp [hplan.root, hterminals, Plan.names, Plan.allNames, hplan.names ht]

theorem Sound.over (h : g.Sound) : g.plan.Over g.producers := (h.guarded fun _ => False).over

theorem Sound.honest_opening (h : g.Sound) (s : Setting) (cancelled : Bool) :
    (Work.opening s (.fresh g.plan cancelled) g.plan).Honest g.producers ∧
      g.plan.Reaches s g.producers (Work.opening s (.fresh g.plan cancelled) g.plan).root :=
  Work.honest_opening h.oneName h.over (Board.named_fresh _ g.plan cancelled)

/-- However it is cancelled, the plan of a sound graph comes to what it announced. -/
theorem Sound.fulfilled_of_leads (h : g.Sound) {w : Work}
    (hw : (Work.opening s (.fresh g.plan cancelled) g.plan).Leads s w) (hdrop : s.dropAt = none)
    (hroot : w.root = .finished yield) : g.plan.Fulfilled yield := by
  obtain ⟨hopening, hreach⟩ := h.honest_opening s cancelled
  have hreaches := (hopening.leads h.oneName hw).2 hdrop hreach
  rw [hroot] at hreaches
  exact hreaches.fulfilled h.oneName h.over

theorem Sound.fulfilled_of_run (h : g.Sound)
    (hout : (g.plan.run s (.fresh g.plan cancelled)).outcome = .finished yield) :
    g.plan.Fulfilled yield := by
  obtain ⟨hopening, hreach⟩ := h.honest_opening s cancelled
  exact (Work.reaches_finish h.oneName hopening hreach hout).fulfilled h.oneName h.over

/-- Every result that is out anywhere is whole, also after a cancellation. -/
theorem Sound.whole_of_out (h : g.Sound) {w : Work} {x : ProducerResult}
    (hw : (Work.opening s (.fresh g.plan cancelled) g.plan).Leads s w)
    (hx : w.board.Out w.held x) : x.Whole := by
  have hkept := h.kept_of_leads hw
  exact (h.right_of_out hkept hx).whole hkept.inv

end Graph

theorem Plan.Fulfilled.exists_single {plan : Plan} {yield : Yield} {name : String}
    (h : plan.Fulfilled yield) (hnames : plan.names = [name]) :
    ∃ x, yield = .results [x] ∧ x.name = name := by
  obtain ⟨rs, rfl, -, hperm⟩ := h
  rw [hnames] at hperm
  obtain ⟨x, rfl, hx⟩ := List.map_eq_singleton_iff.1 (List.perm_singleton.1 hperm)
  exact ⟨x, rfl, hx⟩

/-- The error of a request that was not admitted. -/
def EndpointError.IsInbound : EndpointError → Prop
  | .configuration message => ∃ text, message = "path: " ++ text
  | .evaluation _ | .bodyTooLarge _ => True
  | .producer _ => False

theorem RequestModifiers.Fails.isInbound {m : RequestModifiers} {r : ClientRequest}
    {error : EndpointError} (h : m.Fails r error) : error.IsInbound := by
  cases h with
  | path => exact ⟨_, rfl⟩
  | expression | headers | query | target | form => trivial

namespace Endpoint

variable {e : Endpoint} {c : Circumstances} {r edited : ClientRequest} {m : ResultMap}
  {x : ProducerResult} {error : EndpointError}

theorem failsOnly_admitted (e : Endpoint) (r : ClientRequest) :
    FailsOnly EndpointError.IsInbound (e.admitted r) := by
  refine FailsOnly.bind ?_ fun _ error herror => (RequestModifiers.failsOnly_apply error herror).isInbound
  unfold checkBody
  split
  · exact .error trivial
  · exact .pure ()

/-- What an endpoint says of several results it does not say of a request. -/
theorem not_isInbound_of_singleResult {rs : List ProducerResult}
    (h : e.singleResult rs = .error error) : ¬ error.IsInbound ∧ ∀ f, error ≠ .producer f := by
  unfold singleResult at h
  split at h
  · cases h
  · cases h
    refine ⟨?_, fun f hf => by cases hf⟩
    -- a configuration error of a request starts with the name of the path
    rintro ⟨text, htext⟩
    have hchars := congrArg String.toList htext
    simp at hchars

/-- An endpoint that was accepted without template and redirect has producers, but not several
results. -/
theorem graph_of_accepted (haccepted : e.refusal? = none) (htemplate : e.template = none)
    (hredirect : e.redirect = none) : e.graph.producers ≠ [] ∧ e.graph.size ≤ 1 := by
  unfold refusal? at haccepted
  rw [htemplate, hredirect] at haccepted
  simp only [Option.isSome_none, Bool.or_self, Bool.false_eq_true, if_false] at haccepted
  split at haccepted
  · cases haccepted
  · next hempty =>
    split at haccepted
    · cases haccepted
    · next hsize =>
      refine ⟨?_, Nat.not_lt.1 hsize⟩
      simpa [Graph.isEmpty] using hempty

/-- A whole result is passed on, unless it has a failure. -/
theorem failure_of_passThrough (hx : x.Whole) (h : passThrough x = .error error) :
    ∃ f, x.failure = some f ∧ error = .producer f := by
  cases hf : x.failure with
  | some f =>
    unfold passThrough at h
    rw [hf] at h
    cases h
    exact ⟨f, rfl, rfl⟩
  | none =>
    obtain ⟨request, response, heq⟩ := hx (by simp [ProducerResult.isOk, hf])
    rw [heq] at h
    cases h

theorem rawAnswer_single (htemplate : e.template = none) (hredirect : e.redirect = none) :
    e.rawAnswer r m [x] = (passThrough x).map fun response => (response, some x) := by
  unfold rawAnswer
  rw [htemplate, hredirect]
  show (passThrough x >>= _) = _
  cases passThrough x <;> rfl

/-- Editing a response does not fail. -/
theorem failure_of_answer (htemplate : e.template = none) (hredirect : e.redirect = none)
    (hx : x.Whole) (h : e.answer r m [x] = .error error) :
    ∃ f, x.failure = some f ∧ error = .producer f := by
  unfold answer at h
  rw [rawAnswer_single htemplate hredirect] at h
  cases hpass : passThrough x with
  | error error' =>
    rw [hpass] at h
    cases h
    exact failure_of_passThrough hx hpass
  | ok response =>
    rw [hpass] at h
    change (if e.responseModifiers.isEmpty then _ else _) = _ at h
    split at h <;> cases h

/-- A request is refused before its run, because of a cancellation, or with the failure of the one
result of the run. -/
theorem refused_cases (htemplate : e.template = none) (hredirect : e.redirect = none)
    (hsingle : ∀ edited yield, (e.run c edited).outcome = .finished yield →
      ∃ x, yield = .results [x] ∧ x.Whole)
    (h : (e.serve c r).1 = .refused error) :
    e.admitted r = .error error ∨ error = .producer .cancelled ∨
      ∃ edited x f, e.admitted r = .ok edited ∧
        (e.run c edited).outcome = .finished (.results [x]) ∧ x.failure = some f ∧
        error = .producer f := by
  rw [serve_eq] at h
  cases hadmitted : e.admitted r with
  | error error' =>
    rw [hadmitted] at h
    cases h
    exact .inl rfl
  | ok edited =>
    rw [hadmitted] at h
    simp only [conclude] at h
    split at h
    · next rs hout =>
      obtain ⟨x, heq, hx⟩ := hsingle edited _ hout
      cases heq
      split at h
      · cases h
      · next error' hanswer =>
        cases h
        split at hanswer
        -- a cancellation is noticed only after the results were published
        · cases hanswer
          exact .inr (.inl rfl)
        · obtain ⟨f, hf, rfl⟩ := failure_of_answer htemplate hredirect hx hanswer
          exact .inr (.inr ⟨edited, x, f, rfl, hout, hf, rfl⟩)
    · cases h
    · cases h
    · cases h

/-- An endpoint without template and redirect that was accepted has one producer that no other
depends on. Whatever the backends do, and whether or not the run is cancelled, its plan comes to one
result, that of this producer, and every result that is out anywhere has a failure or else a request
and a response. So a request is never refused because there are several results or none, and because
a result is missing only if the result of the producer says so. -/
theorem one_result_passed_on {declared : List Producer}
    (hbuild : Graph.build declared = .ok e.graph) (haccepted : e.refusal? = none)
    (htemplate : e.template = none) (hredirect : e.redirect = none) :
    ∃ t ∈ e.graph.producers,
      (∀ p ∈ e.graph.producers, (∀ q, ¬ e.graph.Depends q p) ↔ p = t) ∧
      e.graph.terminals = [t.name] ∧ e.graph.size = 1 ∧
      ∀ (c : Circumstances) (r : ClientRequest),
        (∀ edited w, (Work.opening (c.setting edited) (.fresh e.graph.plan c.cancelled)
            e.graph.plan).Leads (c.setting edited) w →
          (∀ x, w.board.Out w.held x → x.Whole) ∧
          (c.dropAt = none → ∀ yield, w.root = .finished yield →
            ∃ x, yield = .results [x] ∧ x.name = t.name)) ∧
        (∀ edited yield, (e.run c edited).outcome = .finished yield →
          ∃ x, yield = .results [x] ∧ x.name = t.name ∧
            ∀ error, passThrough x = .error error →
              ∃ f, x.failure = some f ∧ error = .producer f) ∧
        (∀ rs error, e.singleResult rs = .error error → (e.serve c r).1 ≠ .refused error) ∧
        ((e.serve c r).1 = .refused (.producer .noResult) →
          ∃ edited x, e.admitted r = .ok edited ∧
            (e.run c edited).outcome = .finished (.results [x]) ∧ x.failure = some .noResult) := by
  have hsound := Graph.sound_of_build hbuild
  obtain ⟨hne, hsize⟩ := graph_of_accepted haccepted htemplate hredirect
  obtain ⟨t, ht, honly, hterminals, hone, hnames⟩ := hsound.exists_only hne hsize
  refine ⟨t, ht, honly, hterminals, hone, fun c r => ?_⟩
  -- the one result of a run is out in the schedule that the run is
  have hsingle : ∀ edited yield, (e.run c edited).outcome = .finished yield →
      ∃ x, yield = .results [x] ∧ x.name = t.name ∧ x.Whole := by
    intro edited yield hout
    rw [run_eq] at hout
    obtain ⟨x, rfl, hname⟩ := (hsound.fulfilled_of_run hout).exists_single hnames
    have hmem : x ∈ (e.graph.plan.run (c.setting edited)
        (.fresh e.graph.plan c.cancelled)).outcome.results := by
      rw [hout]
      exact List.mem_singleton_self x
    obtain ⟨w, hw, -, hx⟩ := Graph.out_of_run (.inr (.inr hmem))
    exact ⟨x, rfl, hname, hsound.whole_of_out hw hx⟩
  have hwhole : ∀ edited yield, (e.run c edited).outcome = .finished yield →
      ∃ x, yield = .results [x] ∧ x.Whole := by
    intro edited yield hout
    obtain ⟨x, heq, -, hx⟩ := hsingle edited yield hout
    exact ⟨x, heq, hx⟩
  refine ⟨?schedules, ?runs, ?several, ?missing⟩
  case schedules =>
    intro edited w hw
    refine ⟨fun x hx => hsound.whole_of_out hw hx, ?_⟩
    intro hdrop yield hroot
    exact (hsound.fulfilled_of_leads hw hdrop hroot).exists_single hnames
  case runs =>
    intro edited yield hout
    obtain ⟨x, heq, hname, hx⟩ := hsingle edited yield hout
    exact ⟨x, heq, hname, fun error herror => failure_of_passThrough hx herror⟩
  case several =>
    intro rs error hseveral hrefused
    obtain ⟨hinbound, hproducer⟩ := not_isInbound_of_singleResult hseveral
    rcases refused_cases htemplate hredirect hwhole hrefused with
      hadmitted | hcancelled | ⟨_, _, f, -, -, -, hfailure⟩
    · exact hinbound (e.failsOnly_admitted r error hadmitted)
    · exact hproducer _ hcancelled
    · exact hproducer f hfailure
  case missing =>
    intro hrefused
    rcases refused_cases htemplate hredirect hwhole hrefused with
      hadmitted | hcancelled | ⟨edited, x, f, hadmitted, hout, hf, hfailure⟩
    · exact (e.failsOnly_admitted r _ hadmitted).elim
    · cases hcancelled
    · cases hfailure
      exact ⟨edited, x, hadmitted, hout, hf⟩

/-- The endpoint of two producers that passes on the response of the one that reads the other. -/
def passing : Endpoint where
  pattern := "/"
  graph := .pair

/-- Its plan comes to one result even if all backends panic. -/
theorem one_result_of_panics :
    let c : Circumstances := { backends := fun _ _ _ => { ending := .panic none } }
    Graph.build [.plain 0 "first", .reading 1 "second" "first"] = .ok passing.graph ∧
      passing.refusal? = none ∧ passing.template = none ∧ passing.redirect = none ∧
      passing.graph.terminals = ["second"] ∧
      ∀ rs error, passing.singleResult rs = .error error →
        (passing.serve c .plain).1 ≠ .refused error := by
  intro c
  have hbuild : Graph.build [.plain 0 "first", .reading 1 "second" "first"] = .ok passing.graph :=
    Graph.build_pair
  have haccepted : passing.refusal? = none := by cbv
  obtain ⟨t, -, -, -, -, hrequests⟩ := one_result_passed_on hbuild haccepted rfl rfl
  obtain ⟨-, -, hseveral, -⟩ := hrequests c .plain
  exact ⟨hbuild, haccepted, rfl, rfl, by cbv, hseveral⟩

end Endpoint

end Gateway
