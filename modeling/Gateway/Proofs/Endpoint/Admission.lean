import Gateway.Proofs.Endpoint.Transparency

/-!
# Gateway.Proofs.Endpoint.Admission — requests that are turned away

A request is turned away before any producer runs: when its body is too long, and when a modifier of
the endpoint cannot be evaluated or cannot be applied. The body is measured first, and only where a
request is served. Whoever runs the producers for their results alone gets them for a body of any
length.

There are three ways into an endpoint. `serve` and `handle` differ in what they say of an error, not in
when there is one, so what holds of the first is carried over to the second (`serve_of_refused`).
`produce` is a way of its own: it edits the request as the others do but does not measure it. That is
stated as what it does, with calls and all, and not as an exception to the rule: for a body of any
length its calls are those of an endpoint whose limit leaves room for it.

Which error a request is turned away with is left to `Inbound`, where it is said what can go wrong in
each modifier. Here it only matters that it is one of these, and that nothing has been called by then.
That no producer runs is said by the list of calls, which is empty; a list that is empty because the
calls were not written down would not tell, but the same list has the calls of all requests that are
let in.
-/

set_option autoImplicit false

namespace Gateway

namespace Endpoint

theorem produce_eq (e : Endpoint) (c : Circumstances) (r : ClientRequest) :
    e.produce c r = match e.requestModifiers.apply r with
      | .error error => (.refused error, [])
      | .ok edited => (conclude (fun _ rs => .ok rs) (e.run c edited), (e.run c edited).calls) := rfl

theorem serve_of_refused {e : Endpoint} {c : Circumstances} {r : ClientRequest}
    {error : EndpointError} (h : e.admitted r = .error error) :
    e.serve c r = (.refused error, []) ∧ e.handle c r = (.answered error.response, []) := by
  have hserve : e.serve c r = (.refused error, []) := by rw [serve_eq, h]
  exact ⟨hserve, by rw [handle, hserve]⟩

/-- A request with too long a body is refused where it is served, and one that a modifier fails on is
refused with the error of such a modifier, whichever way it came in. No backend is called for either.
The producers themselves are run for any body: the calls are those of an endpoint whose limit leaves
room for it, and the request is refused only for a modifier that fails. -/
theorem turned_away (e : Endpoint) (c : Circumstances) (r : ClientRequest) :
    (e.bodyLimit < r.body.length →
      e.serve c r = (.refused (.bodyTooLarge e.bodyLimit), []) ∧
        ∃ response, e.handle c r = (.answered response, []) ∧ response.status = 413) ∧
    ((∃ error, e.requestModifiers.Fails r error) →
      ∃ error, e.requestModifiers.Fails r error ∧ e.produce c r = (.refused error, []) ∧
        (r.body.length ≤ e.bodyLimit →
          e.serve c r = (.refused error, []) ∧ e.handle c r = (.answered error.response, []))) ∧
    (∀ error, e.requestModifiers.Fails r error → error.status = 500 ∧
      (error.kind = "evaluation" ∨
        error.kind = "configuration" ∧ e.requestModifiers.MarksPath r)) ∧
    (∀ error, (e.produce c r).1 = .refused error → e.requestModifiers.Fails r error) ∧
    ∀ limit, r.body.length ≤ limit →
      (e.produce c r).2 = ({ e with bodyLimit := limit }.serve c r).2 := by
  refine ⟨?long, ?failing, fun error herror => herror.kind, ?refused, ?unmeasured⟩
  case long =>
    intro hlong
    obtain ⟨hserve, hhandle⟩ := serve_of_refused (c := c) (admitted_of_length_lt hlong)
    exact ⟨hserve, _, hhandle, rfl⟩
  case failing =>
    intro hfails
    obtain ⟨error, happly, herror⟩ := RequestModifiers.exists_error hfails
    refine ⟨error, herror, by rw [produce_eq, happly], fun hshort => serve_of_refused ?_⟩
    rw [admitted_of_length_le hshort, happly]
  case refused =>
    intro error hrefused
    rw [produce_eq] at hrefused
    cases happly : e.requestModifiers.apply r with
    | ok edited =>
      rw [happly] at hrefused
      simp only [conclude] at hrefused
      split at hrefused <;> cases hrefused
    | error error' =>
      rw [happly] at hrefused
      cases hrefused
      exact RequestModifiers.failsOnly_apply _ happly
  -- raising the limit is no other edit, and the calls are made after the edit
  case unmeasured =>
    intro limit hlimit
    have hadmitted := admitted_of_length_le (e := { e with bodyLimit := limit }) hlimit
    rw [produce_eq, serve_eq, hadmitted]
    cases e.requestModifiers.apply r with
    | ok edited => rfl
    | error error => rfl

/-- An endpoint that takes four bytes, and whose path has a fragment. -/
def marking : Endpoint :=
  { mirror with
    bodyLimit := 4
    requestModifiers := { path := some (.literal (.string "/a#b")) } }

/-- Four bytes get as far as the path, five do not where the request is served. -/
theorem turned_away_of_marked :
    let c : Circumstances := { backends := fun _ _ _ => { ending := .panic none } }
    let long : ClientRequest := { ClientRequest.plain with body := [1, 2, 3, 4, 5] }
    let short : ClientRequest := { ClientRequest.plain with body := [1, 2, 3, 4] }
    marking.bodyLimit < long.body.length ∧ marking.serve c long = (.refused (.bodyTooLarge 4), []) ∧
      (∃ error, marking.requestModifiers.Fails short error) ∧
      ∃ error, marking.requestModifiers.Fails short error ∧ error.kind = "configuration" ∧
        marking.produce c short = (.refused error, []) ∧
        marking.serve c short = (.refused error, []) := by
  intro c long short
  have hlong : marking.bodyLimit < long.body.length := by decide
  have hfails : ∃ error, marking.requestModifiers.Fails short error :=
    ⟨_, .path rfl rfl (.inr (by decide))⟩
  obtain ⟨hserve, -⟩ := (turned_away marking c long).1 hlong
  obtain ⟨error, herror, hproduce, hserve'⟩ := (turned_away marking c short).2.1 hfails
  have hkind : error.kind = "configuration" := by
    obtain ⟨text, happly⟩ :
        ∃ text, marking.requestModifiers.apply short = .error (.configuration text) := ⟨_, rfl⟩
    rw [produce_eq, happly] at hproduce
    cases hproduce
    rfl
  exact ⟨hlong, hserve, hfails, error, herror, hkind, hproduce, (hserve' (by decide)).1⟩

/-- A body of five bytes is too long for the endpoint, and yet its backend is called for it when the
producers are run for their results. -/
theorem produce_of_too_long :
    let e : Endpoint := { mirror with bodyLimit := 4 }
    let c : Circumstances :=
      { backends := fun _ _ _ => { ending := .response { status := 200 }, delay := some 5 } }
    let r : ClientRequest := { ClientRequest.plain with body := [1, 2, 3, 4, 5] }
    e.bodyLimit < r.body.length ∧ (e.serve c r).2 = [] ∧ (e.produce c r).2.length = 1 ∧
      (e.produce c r).1 = .answered [.success "default"
        { method := r.method, url := r.pathAndQuery, body := r.body } { status := 200 }] := by
  intro e c r
  exact ⟨by decide, by cbv, by cbv, by cbv⟩

end Endpoint

end Gateway
