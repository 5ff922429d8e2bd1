import Gateway.Proofs.Endpoint.Cancellation
import Gateway.Proofs.Endpoint.Single
import Gateway.Proofs.Http.Forwarding

/-!
# Gateway.Proofs.Endpoint.Transparency — proxies that change nothing

A proxy without attributes, in an endpoint that does nothing of its own, stands between the client
and its backend as if they had a connection to each other: whatever the one sends is what the other
gets, less the header fields that concern the connections on either side of the gateway.

`ForwardedAs` is that, for either direction, and does not mention the gateway. Of the fields it says
both that those are gone which concern the connection and that all others are there, with their values
in order: a gateway that forwarded no field at all would have removed the right ones, too.

The rest is to see that nothing else happens. A graph of one producer has one plan, and in every
schedule that comes to results its producer has made one call, or could not make its request, which a
proxy without attributes always can (`settled_alone`, `settled_single`). Both are stated for producers
with attributes, because what is said of timeouts and of refused requests begins in the same way.

Nothing is said of a backend that gives no response. The client is told of that by an error of the
gateway, and it could not be otherwise.
-/

set_option autoImplicit false

namespace Gateway

namespace Graph

/-- The graph of one producer that refers to no other. -/
def single (p : Producer) : Graph where
  producers := [p]
  deps := [[]]
  nodes := [.call p, .parallel [0]]
  root := 1

theorem build_single (p : Producer) (h : p.attributes = {}) :
    build [p] = .ok (single { p with id := 0 }) := by
  obtain ⟨id, name, kind, backend, attributes⟩ := p
  cases h
  cbv

variable {g : Graph} {p : Producer} {s : Setting} {b : Board} {rs : List ProducerResult}

/-- One producer makes no other graph: on its response side it may refer to itself. -/
theorem eq_single_of_build (h : build [p] = .ok g) : g = single { p with id := 0 } := by
  obtain ⟨hproducers, -, hself, hdeps, -, -, d, tops, hlay, hnodes, hroot⟩ := build_eq_ok h
  change g.producers = [{ p with id := 0 }] at hproducers
  rw [hproducers] at hself hdeps hlay
  have hnone : dependencies [{ p with id := 0 }] { p with id := 0 } = [] := by
    rw [List.eq_nil_iff_forall_not_mem]
    intro d hd
    obtain ⟨q, hq, -, hname⟩ := mem_dependencies.1 hd
    rw [List.mem_singleton.1 hq] at hname
    rcases List.mem_append.1 hname with hname | hname
    · exact not_mem_of_selfReference? hself (List.mem_singleton_self _) hname
    · simp [Producer.responseReferences] at hname
  rw [List.map_singleton, hnone] at hdeps
  rw [hdeps] at hlay
  -- there is one terminal to lay out, and nothing below it
  have hlaid : Draft.lay [{ p with id := 0 }] (Deps.reduce [[]]) [0] {} (Deps.terminals [[]])
      = ([0], ⟨[.call { p with id := 0 }], [(0, 0)]⟩) := by cbv
  cases hlaid.symm.trans hlay
  obtain ⟨producers, deps, nodes, root⟩ := g
  cases hproducers
  cases hdeps
  cases hnodes
  cases hroot
  rfl

/-- It needs no result before its call. -/
theorem Sound.needs_single (h : g.Sound) (hg : g = single p) : h.ensemble.needs p = [] := by
  subst hg
  rw [List.eq_nil_iff_forall_not_mem]
  intro d hd
  have hdeps := (h.mem_needs.1 hd).2
  cases hid : p.id <;> rw [hid] at hdeps <;> cases hdeps

/-- In a schedule that comes to results the one producer could not make its request, and has failed, or
has made one call, and the one result is what it made of the end of the call. -/
theorem Sound.settled_alone (h : g.Sound) (hg : g = single p)
    (hrun : h.ensemble.Settled s g.plan.names b rs) :
    (∃ m f, p.prepare s.client m = .error f ∧ b.calls = [] ∧ rs = [.failed p.name f]) ∨
      ∃ m m' expected request start, p.prepare s.client m = .ok (expected, request) ∧
        b.calls = [⟨p, request, start, .answered⟩] ∧
        rs = [Run.outcome s.client m' p expected request (s.reply p request).ending] := by
  have hnone := h.needs_single hg
  subst hg
  obtain ⟨x, rfl, -⟩ := List.map_eq_singleton_iff.1 (List.perm_singleton.1 hrun.names)
  obtain ⟨q, hq, -, -, hcame⟩ := (hrun.right x (List.mem_singleton_self x)).done hrun.live
  obtain rfl : q = p := List.mem_singleton.1 hq
  cases hcame with
  | skipped hd => exact absurd (hnone ▸ hd) List.not_mem_nil
  | settled hcell =>
    -- all calls are those of the one producer
    have hcalls : b.calls = b.callsOf q := by
      refine (List.filter_eq_self.2 fun call hcall => ?_).symm
      rw [List.mem_singleton.1 (hrun.sheet.ledger.entries call hcall)]
      exact decide_eq_true rfl
    cases hrun.sheet.ledger.tells_of_live hrun.live hq hcell with
    | declined hsights hnone hfailed =>
      exact .inl ⟨_, _, hfailed, hcalls.trans hnone, rfl⟩
    | answered hsights hcall hmade =>
      exact .inr ⟨_, _, _, _, _, hmade, hcalls.trans hcall, rfl⟩

/-- In a schedule that comes to results the one producer has made one call, if it can make its
request, and the one result is what it made of the end of the call. -/
theorem Sound.settled_single (h : g.Sound) (hg : g = single p)
    (hrun : h.ensemble.Settled s g.plan.names b rs) {expected : List Nat}
    {request : BackendRequest} (hprepare : ∀ m, p.prepare s.client m = .ok (expected, request)) :
    ∃ m start, b.calls = [⟨p, request, start, .answered⟩] ∧
      rs = [Run.outcome s.client m p expected request (s.reply p request).ending] := by
  rcases h.settled_alone hg hrun with ⟨m, f, hfailed, -⟩ | ⟨m, m', _, _, start, hmade, hcalls, hrs⟩
  · cases (hprepare m).symm.trans hfailed
  · cases (hprepare m).symm.trans hmade
    exact ⟨m', start, hcalls, hrs⟩

end Graph

theorem Producer.prepare_proxy {p : Producer} (hkind : p.kind = .proxy) (hplain : p.attributes = {})
    (client : ClientRequest) (m : ResultMap) :
    p.prepare client m = .ok ([],
      { method := client.method, url := client.pathAndQuery, headers := client.headers.endToEnd,
        body := client.body }) := by
  obtain ⟨id, name, kind, backend, attributes⟩ := p
  cases hkind
  cases hplain
  rfl

/-- A proxy without attributes takes a response as it is. -/
theorem Run.outcome_proxy {p : Producer} (hplain : p.attributes = {}) (client : ClientRequest)
    (m : ResultMap) (request : BackendRequest) (response : Response) :
    outcome client m p [] request (.response response) = .success p.name request response := by
  obtain ⟨id, name, kind, backend, attributes⟩ := p
  cases hplain
  rfl

/-- What is sent for a request of a client changes nothing of it but the connection. -/
structure ClientRequest.ForwardedAs (r : ClientRequest) (sent : BackendRequest) : Prop where
  method : sent.method = r.method
  url : sent.url = r.pathAndQuery
  headers : r.headers.Forwards sent.headers
  body : sent.body = r.body

/-- What a client receives for a response changes nothing of it but the connection. -/
structure Response.ForwardedAs (response received : Response) : Prop where
  status : received.status = response.status
  headers : response.headers.Forwards received.headers
  body : received.body = response.body

namespace Endpoint

variable {e : Endpoint} {c : Circumstances} {r : ClientRequest} {p : Producer}

theorem admitted_of_plain (hmodifiers : e.requestModifiers.isEmpty = true)
    (hbody : r.body.length ≤ e.bodyLimit) : e.admitted r = .ok r := by
  rw [admitted_of_length_le hbody, RequestModifiers.apply, if_pos hmodifiers]
  rfl

/-- The response of the one result is passed on. -/
theorem answer_success (htemplate : e.template = none) (hredirect : e.redirect = none)
    (hmodifiers : e.responseModifiers.isEmpty = true) (m : ResultMap) (name : String)
    (request : BackendRequest) (response : Response) :
    e.answer r m [.success name request response] =
      .ok { response with headers := response.headers.endToEnd } := by
  unfold answer
  rw [rawAnswer_single htemplate hredirect]
  show (if e.responseModifiers.isEmpty = true then _ else _) = _
  rw [if_pos hmodifiers]
  rfl

theorem handle_eq (e : Endpoint) (c : Circumstances) (r : ClientRequest) :
    (e.handle c r).2 = (e.serve c r).2 ∧
      ∀ response, (e.serve c r).1 = .answered response → (e.handle c r).1 = .answered response := by
  unfold handle
  rcases hserve : e.serve c r with ⟨response | error | - | -, calls⟩
  · exact ⟨rfl, fun _ h => h⟩
  · exact ⟨rfl, fun _ h => nomatch h⟩
  · exact ⟨rfl, fun _ h => nomatch h⟩
  · exact ⟨rfl, fun _ h => nomatch h⟩

/-- The backend of a proxy was called once, with the request of the client, and if it gave a response
the client received that. -/
def Passes (c : Circumstances) (proxy : Producer) (r : ClientRequest) (calls : List Call)
    (answer : Served Response) : Prop :=
  ∃ sent start, r.ForwardedAs sent ∧ calls = [⟨proxy, sent, start, .answered⟩] ∧
    ∀ response, (c.backends proxy 0 sent).ending = .response response →
      ∃ received, answer = .answered received ∧ response.ForwardedAs received

/-- An endpoint of one proxy without attributes, template, redirect and modifiers is transparent. Its
backend gets the method, the path with the query and the body that the client sent, and the client
gets the status and the body that the backend sent. In either direction the header fields are passed
on, except those that concern one connection. -/
theorem transparent_proxy (hbuild : Graph.build [p] = .ok e.graph) (hkind : p.kind = .proxy)
    (hattributes : p.attributes = {}) (htemplate : e.template = none) (hredirect : e.redirect = none)
    (hrequest : e.requestModifiers.isEmpty = true)
    (hresponse : e.responseModifiers.isEmpty = true) (hbody : r.body.length ≤ e.bodyLimit) :
    let proxy := { p with id := 0 }
    (∀ b rs, e.graph.plan.ComesTo (c.setting r) c.cancelled b rs →
      Passes c proxy r b.calls (served (e.answer r (b.publish rs).results rs))) ∧
    (e.Undisturbed c r →
      Passes c proxy r (e.serve c r).2 (e.serve c r).1 ∧
        Passes c proxy r (e.handle c r).2 (e.handle c r).1) := by
  intro proxy
  have hsound := Graph.sound_of_build hbuild
  have hgraph : e.graph = Graph.single proxy := by
    rw [Graph.build_single p hattributes] at hbuild
    exact (Except.ok.inj hbuild).symm
  have hprepare := Producer.prepare_proxy (p := proxy) hkind hattributes r
  -- what holds of every schedule that settles the graph
  have hpasses : ∀ {b rs}, hsound.ensemble.Settled (c.setting r) e.graph.plan.names b rs →
      Passes c proxy r b.calls (served (e.answer r (b.publish rs).results rs)) := by
    intro b rs hrun
    obtain ⟨m, start, hcalls, rfl⟩ := hsound.settled_single hgraph hrun hprepare
    refine ⟨_, start, ⟨rfl, rfl, r.headers.forwards_endToEnd, rfl⟩, hcalls, ?_⟩
    intro response hending
    have hreply : ((c.setting r).reply proxy _).ending = .response response := hending
    rw [hreply, Run.outcome_proxy (p := proxy) hattributes,
      answer_success htemplate hredirect hresponse]
    exact ⟨_, rfl, rfl, response.headers.forwards_endToEnd, rfl⟩
  refine ⟨fun b rs hb => hpasses (hsound.settled hb), fun hundisturbed => ?_⟩
  have hadmitted := admitted_of_plain hrequest hbody
  obtain ⟨rs, hrun⟩ := hundisturbed.complete hsound hadmitted
  have hserve : Passes c proxy r (e.serve c r).2 (e.serve c r).1 := by
    rw [calls_serve hadmitted, hrun.calls, serve_of_complete hadmitted hrun]
    exact hpasses hrun.toSettled
  refine ⟨hserve, ?_⟩
  obtain ⟨sent, start, hsent, hcalls, hanswer⟩ := hserve
  obtain ⟨hhandled, hkept⟩ := e.handle_eq c r
  refine ⟨sent, start, hsent, hhandled.trans hcalls, fun response hending => ?_⟩
  obtain ⟨received, hreceived, hforwarded⟩ := hanswer response hending
  exact ⟨received, hkept received hreceived, hforwarded⟩

/-- The endpoint of one proxy. -/
def mirror : Endpoint where
  pattern := "/"
  graph := .single { Producer.plain 0 "default" with kind := .proxy }

/-- A field that the client lists, in another case, stays behind, and so does one that the backend
lists; the values of a name that comes twice stay in order. -/
theorem transparent_proxy_of_listed :
    let p : Producer := { Producer.plain 0 "default" with kind := .proxy }
    let r : ClientRequest :=
      { ClientRequest.plain with
        method := "PATCH"
        headers := ⟨[(⟨"x-a"⟩, [50]), (⟨"connection"⟩, Utf8.encode "close,\tX-Hop "), (⟨"x-a"⟩, [49]),
          (⟨"x-hop"⟩, [51])]⟩
        body := [0, 255] }
    let c : Circumstances :=
      { backends := fun _ _ _ =>
          { ending := .response
              { status := 404
                headers := ⟨[(⟨"x-b"⟩, [52]), (⟨"connection"⟩, Utf8.encode "x-b")]⟩
                body := [254] }
            delay := some 5 } }
    Graph.build [p] = .ok mirror.graph ∧ p.kind = .proxy ∧ p.attributes = {} ∧
      mirror.template = none ∧ mirror.redirect = none ∧ mirror.requestModifiers.isEmpty = true ∧
      mirror.responseModifiers.isEmpty = true ∧ r.body.length ≤ mirror.bodyLimit ∧
      mirror.Undisturbed c r ∧ Passes c p r (mirror.serve c r).2 (mirror.serve c r).1 ∧
      (mirror.serve c r).2.map (·.request.headers.fields) = [[(⟨"x-a"⟩, [50]), (⟨"x-a"⟩, [49])]] ∧
      (mirror.serve c r).1 = .answered { status := 404, body := [254] } := by
  intro p r c
  have hbuild : Graph.build [p] = .ok mirror.graph := Graph.build_single p rfl
  have hbody : r.body.length ≤ mirror.bodyLimit := by decide
  have hundisturbed : mirror.Undisturbed c r := by
    refine ⟨⟨fun _ _ _ => rfl, fun _ _ _ => rfl⟩, fun edited hadmitted => ?_⟩
    cases (admitted_of_plain rfl hbody).symm.trans hadmitted
    cbv
  obtain ⟨-, hrun⟩ := transparent_proxy (c := c) hbuild rfl rfl rfl rfl rfl rfl hbody
  exact ⟨hbuild, rfl, rfl, rfl, rfl, rfl, rfl, hbody, hundisturbed, (hrun hundisturbed).1, by cbv,
    by cbv⟩

end Endpoint

end Gateway
