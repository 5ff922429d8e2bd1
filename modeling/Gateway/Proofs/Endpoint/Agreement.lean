import Gateway.Endpoint.Serve
import Gateway.Proofs.Graph.Agreement

/-!
# Gateway.Proofs.Endpoint.Agreement — answers that do not depend on delays

What a request is answered with is a matter of what the backends reply, and not of when. The answer
is made from the requests and responses that were published, in the order of their names, or is that
of one producer. Only the report of a failure can depend on time: that of a producer that is skipped
because several others failed.

The exception is not one of the proof. Where two dependencies of a producer fail, it reports the one
that failed first, and which of them does is a matter of delays. So the two runs are not claimed to
come to the same results but to results that agree (`Graph.Agrees`), and two answers are alike if they
are the same, or both are the failure of a producer that was skipped in both runs. An endpoint lets a
client see such a failure only where it passes on the one result that there is. A template never does:
it cannot read failures, only requests and responses, and these agree.

That producers must not read what they do not depend on (`Producer.Selective`) is a condition for the
same reason. Who looks at all results at once sees which of them are there, and that is a matter of
delays.

The theorem is about any two schedules that come to results, not only the two runs. The runs are two
such schedules, but that the delays have no part in what is sent and published does not rest on how the
row is served.
-/

set_option autoImplicit false

namespace Gateway

/-- What the run of a plan is given in these circumstances, for a request that has been edited. -/
def Circumstances.setting (c : Circumstances) (r : ClientRequest) : Setting :=
  { client := r, backends := c.backends, cancelAt := c.cancelAt, dropAt := c.dropAt }

/-- The backends reply the same to the same requests. -/
def Circumstances.SameReplies (c c' : Circumstances) : Prop :=
  ∀ p request, (c'.backends p 0 request).ending = (c.backends p 0 request).ending

namespace Endpoint

variable {e : Endpoint} {c c' : Circumstances} {r edited : ClientRequest} {m m' : ResultMap}
  {rs rs' : List ProducerResult}

/-! ## The answer -/

/-- The answer depends on what is read of the published results. -/
theorem answer_congr (hbuild : ∀ current, Context.build r m current = .build r m' current)
    (rs : List ProducerResult) : e.answer r m rs = e.answer r m' rs := by
  unfold answer rawAnswer
  simp only [hbuild]

/-- A template or a redirect asks for nothing else. -/
theorem answer_eq_of_made (h : e.template ≠ none ∨ e.redirect ≠ none) :
    e.answer r m rs = e.answer r m rs' := by
  unfold answer rawAnswer
  cases htemplate : e.template with
  | some template => rfl
  | none =>
    cases hredirect : e.redirect with
    | some redirect => rfl
    | none => exact absurd ⟨htemplate, hredirect⟩ (not_and_or.2 h)

/-- Without these there is an answer if there is one result. -/
theorem answer_of_length_ne_one (ht : e.template = none) (hr : e.redirect = none)
    (hne : rs.length ≠ 1) (hlength : rs'.length = rs.length) :
    e.answer r m rs = e.answer r m rs' := by
  have herror : ∀ {rs : List ProducerResult}, rs.length ≠ 1 → e.answer r m rs =
      .error (.configuration ("endpoint " ++ quote e.pattern ++ " resolved "
        ++ toString rs.length ++ " results without response or redirect")) := by
    intro rs hne
    unfold answer rawAnswer singleResult
    rw [ht, hr]
    match rs, hne with
    | [], _ => rfl
    | _ :: _ :: _, _ => rfl
  rw [herror hne, herror (hlength ▸ hne), hlength]

theorem answer_of_failed (ht : e.template = none) (hr : e.redirect = none) {x : ProducerResult}
    {f : Failure} (hf : x.failure = some f) : e.answer r m [x] = .error (.producer f) := by
  have hpass : passThrough x = .error (.producer f) := by
    unfold passThrough
    rw [hf]
  have hraw : e.rawAnswer r m [x] = .error (.producer f) := by
    unfold rawAnswer
    rw [ht, hr]
    show (passThrough x >>= _) = _
    rw [hpass]
    rfl
  unfold answer
  rw [hraw]
  rfl

/-! ## Serving -/

/-- An answer as what becomes of a request. -/
def served : Except EndpointError Response → Served Response
  | .ok response => .answered response
  | .error error => .refused error

/-- The request that the plan is run for. -/
def admitted (e : Endpoint) (r : ClientRequest) : Except EndpointError ClientRequest := do
  e.checkBody r
  e.requestModifiers.apply r

theorem admitted_of_length_le (h : r.body.length ≤ e.bodyLimit) :
    e.admitted r = e.requestModifiers.apply r := by
  have hcheck : e.checkBody r = .ok () := if_neg (Nat.not_lt.2 h)
  unfold admitted
  rw [hcheck]
  rfl

theorem admitted_of_length_lt (h : e.bodyLimit < r.body.length) :
    e.admitted r = .error (.bodyTooLarge e.bodyLimit) := by
  have hcheck : e.checkBody r = .error (.bodyTooLarge e.bodyLimit) := if_pos h
  unfold admitted
  rw [hcheck]
  rfl

/-- A request is served without being cancelled by backends that answer all calls in the end. -/
structure Undisturbed (e : Endpoint) (c : Circumstances) (r : ClientRequest) : Prop where
  answering : (c.setting r).Answering
  live : ∀ edited, e.admitted r = .ok edited → (e.run c edited).board.cancelled = false

theorem run_eq (e : Endpoint) (c : Circumstances) (r : ClientRequest) :
    e.run c r = e.graph.plan.run (c.setting r) (.fresh e.graph.plan c.cancelled) := rfl

theorem serve_eq (e : Endpoint) (c : Circumstances) (r : ClientRequest) :
    e.serve c r = match e.admitted r with
      | .error error => (.refused error, [])
      | .ok edited =>
        (conclude (fun b rs => if b.cancelled then .error (.producer .cancelled)
          else e.answer edited b.results rs) (e.run c edited), (e.run c edited).calls) := rfl

theorem Undisturbed.complete (hsound : e.graph.Sound) (h : e.Undisturbed c r)
    (hadmitted : e.admitted r = .ok edited) :
    ∃ rs, hsound.ensemble.Complete (c.setting edited) e.graph.plan.names (e.run c edited) rs := by
  have hs : (c.setting edited).Answering := ⟨h.answering.delayed, h.answering.steady⟩
  have hlive := h.live edited hadmitted
  have hcancelled := hsound.not_cancelled_of_run (run_eq e c edited ▸ hlive)
  rw [run_eq, hcancelled] at hlive ⊢
  exact hsound.complete hs hlive

theorem serve_of_finished (hadmitted : e.admitted r = .ok edited)
    (hout : (e.run c edited).outcome = .finished (.results rs))
    (hlive : ((e.run c edited).board.publish rs).cancelled = false) :
    (e.serve c r).1 = served (e.answer edited ((e.run c edited).board.publish rs).results rs) := by
  rw [serve_eq, hadmitted]
  simp only [conclude, hout, hlive]
  cases e.answer edited ((e.run c edited).board.publish rs).results rs with
  | ok response => rfl
  | error error => rfl

theorem serve_of_complete {E : Ensemble} {names : List String}
    (hadmitted : e.admitted r = .ok edited)
    (h : E.Complete (c.setting edited) names (e.run c edited) rs) :
    (e.serve c r).1 = served (e.answer edited ((e.run c edited).board.publish rs).results rs) :=
  serve_of_finished hadmitted h.outcome h.live

/-! ## Two runs -/

/-- What becomes of a request in two runs is the same, or the one result that would be passed on is
that of a producer that was skipped in both. Then each run reports the failure that it was skipped
for. -/
inductive ServedAlike (e : Endpoint) (b b' : Board) : Served Response → Served Response → Prop
  | same (x : Served Response) : ServedAlike e b b' x x
  | skipped {p : Producer} {f f' : Failure} (htemplate : e.template = none)
      (hredirect : e.redirect = none) (hp : p ∈ e.graph.producers)
      (honly : e.graph.plan.names = [p.name]) (hskipped : e.graph.Skipped b p (.failed p.name f))
      (hskipped' : e.graph.Skipped b' p (.failed p.name f')) :
      ServedAlike e b b' (.refused (.producer f)) (.refused (.producer f'))

section

variable {s s' : Setting} {b b' : Board}

theorem answers_alike (hsound : e.graph.Sound) (hselective : ∀ p ∈ e.graph.producers, p.Selective)
    (halike : s.Alike s') (hrun : hsound.ensemble.Settled s e.graph.plan.names b rs)
    (hrun' : hsound.ensemble.Settled s' e.graph.plan.names b' rs') (r : ClientRequest) :
    e.ServedAlike (b.publish rs) (b'.publish rs')
      (served (e.answer r (b.publish rs).results rs))
      (served (e.answer r (b'.publish rs').results rs')) := by
  have hagrees := hsound.agrees halike hselective hrun hrun' hsound.covered
  -- expressions of the endpoint read the same in both runs
  have hbuild : ∀ current, Context.build r (b.publish rs).results current =
      .build r (b'.publish rs').results current := by
    intro current
    apply Context.build_congr
    · exact hrun.sheet_publish.unique.1
    · exact hrun'.sheet_publish.unique.1
    · exact hsound.published_parts hrun hrun' hagrees
    · rfl
  rw [← answer_congr hbuild rs']
  have hsame : e.answer r (b.publish rs).results rs' = e.answer r (b.publish rs).results rs →
      e.ServedAlike (b.publish rs) (b'.publish rs')
        (served (e.answer r (b.publish rs).results rs))
        (served (e.answer r (b.publish rs).results rs')) := by
    intro heq
    rw [heq]
    exact .same _
  by_cases hmade : e.template ≠ none ∨ e.redirect ≠ none
  · exact hsame (answer_eq_of_made hmade)
  obtain ⟨htemplate, hredirect⟩ : e.template = none ∧ e.redirect = none := by
    simpa only [not_or, not_not] using hmade
  have hnames := hrun.names.trans hrun'.names.symm
  have hlength : rs.length = rs'.length := by simpa using hnames.length_eq
  by_cases hone : rs'.length = 1
  case neg => exact hsame (answer_of_length_ne_one htemplate hredirect hone hlength)
  -- the one result is passed on
  obtain ⟨x', rfl⟩ := List.length_eq_one_iff.1 hone
  obtain ⟨x, rfl⟩ := List.length_eq_one_iff.1 (hlength.trans hone)
  have hx : x.name = x'.name := by simpa using hnames
  obtain ⟨p, hp, hname, -, hcame⟩ := (hrun.right x (List.mem_singleton_self x)).done hrun.live
  obtain ⟨q, hq, hname', -, hcame'⟩ := (hrun'.right x' (List.mem_singleton_self x')).done hrun'.live
  cases hsound.ensemble.eq_of_name hq hp (hname'.trans (hx.symm.trans hname.symm))
  rcases hsound.cameTo_agree halike hselective hrun hrun' hp hcame hcame' with rfl | hskipped
  · exact hsame rfl
  · obtain ⟨f, rfl⟩ := hskipped.1.eq_failed
    obtain ⟨f', rfl⟩ := hskipped.2.eq_failed
    rw [answer_of_failed htemplate hredirect rfl, answer_of_failed htemplate hredirect rfl]
    have honly : e.graph.plan.names = [p.name] := List.perm_singleton.1 hrun.names.symm
    exact .skipped htemplate hredirect hp honly hskipped.1 hskipped.2

end

/-- When the backends reply the same, but after other delays, the producers of an endpoint send the
same requests and come to the same, and a request is answered the same, unless it is refused because
of a producer that was skipped in both runs. This holds of any two schedules that come to results
without being cancelled, and of the runs in which requests are served. -/
theorem serve_agree {declared : List Producer} (hbuild : Graph.build declared = .ok e.graph)
    (hselective : ∀ p ∈ declared, p.Selective) (hreplies : c.SameReplies c') (r : ClientRequest) :
    (∀ edited b rs b' rs', e.graph.plan.ComesTo (c.setting edited) c.cancelled b rs →
      e.graph.plan.ComesTo (c'.setting edited) c'.cancelled b' rs' →
      e.graph.Agrees (b.publish rs) (b'.publish rs') ∧
        e.ServedAlike (b.publish rs) (b'.publish rs')
          (served (e.answer edited (b.publish rs).results rs))
          (served (e.answer edited (b'.publish rs').results rs'))) ∧
    (e.Undisturbed c r → e.Undisturbed c' r →
      (∀ edited, e.admitted r = .ok edited →
        e.graph.Agrees (e.run c edited).final (e.run c' edited).final ∧
          e.ServedAlike (e.run c edited).final (e.run c' edited).final
            (e.serve c r).1 (e.serve c' r).1) ∧
      ∀ error, e.admitted r = .error error → e.serve c' r = e.serve c r) := by
  have hsound := Graph.sound_of_build hbuild
  -- the graph holds the declared producers under other numbers, and reading is not by number
  have hall := Graph.selective_of_build hbuild hselective
  have halike : ∀ edited, (c.setting edited).Alike (c'.setting edited) := fun _ => ⟨rfl, hreplies⟩
  refine ⟨?schedules, fun h h' => ⟨?runs, ?refused⟩⟩
  case schedules =>
    intro edited b rs b' rs' hb hb'
    have hrun := hsound.settled hb
    have hrun' := hsound.settled hb'
    exact ⟨hsound.agrees (halike edited) hall hrun hrun' hsound.covered,
      answers_alike hsound hall (halike edited) hrun hrun' edited⟩
  case runs =>
    intro edited hadmitted
    obtain ⟨rs, hrun⟩ := h.complete hsound hadmitted
    obtain ⟨rs', hrun'⟩ := h'.complete hsound hadmitted
    rw [hrun.final_eq, hrun'.final_eq, serve_of_complete hadmitted hrun,
      serve_of_complete hadmitted hrun']
    have hagrees := hsound.agrees (halike edited) hall hrun.toSettled hrun'.toSettled hsound.covered
    exact ⟨hagrees, answers_alike hsound hall (halike edited) hrun.toSettled hrun'.toSettled edited⟩
  case refused =>
    intro error herror
    rw [serve_eq, serve_eq, herror]

/-- The endpoint of two producers that answers with all their responses. -/
def summary : Endpoint where
  pattern := "/"
  graph :=
    { producers := [.plain 0 "first", .plain 1 "second"]
      deps := [[], []]
      nodes := [.call (.plain 0 "first"), .call (.plain 1 "second"), .parallel [0, 1]]
      root := 2 }
  template := some { jsonBody := some (.reference ⟨Variable.backendResponses.name, []⟩) }

/-- Its answer is the same whichever of the two is answered first. -/
theorem serve_agree_of_overtaken :
    let c (first second : Nat) : Circumstances :=
      { backends := fun p _ _ =>
          { ending := .response { status := 200 }
            delay := some (if p.id = 0 then first else second) } }
    Graph.build [.plain 0 "first", .plain 1 "second"] = .ok summary.graph ∧
      (∀ p ∈ ([.plain 0 "first", .plain 1 "second"] : List Producer), p.Selective) ∧
      (c 5 6).SameReplies (c 6 5) ∧ summary.Undisturbed (c 5 6) .plain ∧
      summary.Undisturbed (c 6 5) .plain ∧
      (summary.serve (c 6 5) .plain).1 = (summary.serve (c 5 6) .plain).1 := by
  intro c
  have hbuild : Graph.build [.plain 0 "first", .plain 1 "second"] = .ok summary.graph := by cbv
  have hselective : ∀ p ∈ ([.plain 0 "first", .plain 1 "second"] : List Producer), p.Selective := by
    intro p hp
    have hnone : p.attributes.requestSide = [] ∧ p.attributes.responseSide = [] := by
      simp only [List.mem_cons, List.not_mem_nil, or_false] at hp
      rcases hp with rfl | rfl <;> exact ⟨rfl, rfl⟩
    constructor <;> simp [hnone]
  have hadmitted : ∀ edited, summary.admitted .plain = .ok edited → edited = .plain := by
    intro edited h
    cases h
    rfl
  have hundisturbed : ∀ first second : Nat,
      (summary.run (c first second) .plain).board.cancelled = false →
        summary.Undisturbed (c first second) .plain := fun first second hlive =>
    ⟨⟨fun _ _ _ => rfl, fun _ _ _ => rfl⟩, fun edited h => hadmitted edited h ▸ hlive⟩
  have h := hundisturbed 5 6 (by cbv)
  have h' := hundisturbed 6 5 (by cbv)
  have hreplies : (c 5 6).SameReplies (c 6 5) := fun _ _ => rfl
  have halike := (((serve_agree hbuild hselective hreplies .plain).2 h h').1 .plain rfl).2
  refine ⟨hbuild, hselective, hreplies, h, h', ?_⟩
  generalize (summary.serve (c 5 6) .plain).1 = x, (summary.serve (c 6 5) .plain).1 = x' at halike
  cases halike with
  | same => rfl
  | skipped htemplate => cases htemplate

end Endpoint

end Gateway
