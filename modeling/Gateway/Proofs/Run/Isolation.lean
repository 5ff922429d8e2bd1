import Gateway.Proofs.Evaluation.Reads
import Gateway.Proofs.Run.Once
import Mathlib

/-!
# Gateway.Proofs.Run.Isolation — what a call can depend on

A producer makes its request of what its attributes read. So in two runs in which they read the same
it sends the same request or fails alike, whatever else the clients sent and whatever other producers
came to; a proxy takes the message of the client besides. In particular a backend learns nothing of
the header fields and the body of the client that no attribute names. What the producer makes of the
reply is again a matter of what its attributes read.

What a call depends on is said by comparing two of it. They may be in different runs, for different
clients, with different maps, and all that is known is that the contexts agree on the traversals that
the attributes list. `Invoked` has what a call can come to in one run, in three cases, and the theorem
goes through the pairs of them. That one of the two should fail and the other be sent is among the pairs
that have to be excluded.

Agreement of contexts is more than a caller could check, so the last part gives a condition on clients
that implies it: they differ in header fields and perhaps in the body, and no attribute names these
(`Spares`). A traversal that names the header fields as a whole names them all.
-/

set_option autoImplicit false

namespace Gateway

/-! ## What contexts agree on -/

namespace Context

/-- The contexts agree on all that some attributes read. -/
def Agree (c c' : Context) (fields : List (String × Expression)) : Prop :=
  ∀ field ∈ fields, ∀ t ∈ field.2.traversals, c.lookup t = c'.lookup t

end Context

namespace Producer

variable {p : Producer} {client client' : ClientRequest} {m m' : ResultMap}

theorem prepare_eq_of_agree (hclient : p.kind = .proxy → client.ForwardedAlike client')
    (h : (Context.build client m none).Agree (.build client' m' none) p.attributes.requestSide) :
    p.prepare client m = p.prepare client' m' := by
  apply prepare_congr hclient
  apply Context.alike_of_lookup
  intro field hfield t ht
  exact h field hfield t ht

theorem editResponse_eq_of_agree {sent : BackendRequest} {response : Response}
    (h : (Context.build client m (some (.success p.name sent response))).Agree
      (.build client' m' (some (.success p.name sent response))) p.attributes.responseSide) :
    p.editResponse client m sent response = p.editResponse client' m' sent response := by
  apply editResponse_congr
  apply Context.alike_of_lookup
  intro field hfield t ht
  exact h field hfield t ht

end Producer

/-- A producer makes the same of the end of a call when the attributes that edit its response read
the same. -/
theorem Run.outcome_eq_of_agree {p : Producer} {client client' : ClientRequest} {m m' : ResultMap}
    {expected : List Nat} {request : BackendRequest} {ending : Ending}
    (h : ∀ response, ending = .response response →
      (Context.build client m (some (.success p.name request response))).Agree
        (.build client' m' (some (.success p.name request response))) p.attributes.responseSide) :
    outcome client m p expected request ending = outcome client' m' p expected request ending := by
  cases ending with
  | failure f | panic message => rfl
  | response response =>
    simp only [outcome, Producer.conclude, Producer.editResponse_eq_of_agree (h response rfl)]

/-! ## What is hidden -/

theorem Headers.mem_names {h : Headers} {name : HeaderName} :
    name ∈ h.names ↔ h.values name ≠ [] := by
  simp [names, values, List.mem_eraseDups]

theorem lookup_map_names {α : Type} (value : HeaderName → α) (name : HeaderName) :
    ∀ l : List HeaderName, (l.map fun n => (n.text, value n)).lookup name.text =
      if name ∈ l then some (value name) else none
  | [] => rfl
  | n :: rest => by
    rw [List.map_cons, List.lookup_cons]
    by_cases heq : name = n
    · subst heq
      simp
    · have htext : (name.text == n.text) = false := by
        apply beq_eq_false_iff_ne.2
        intro htext
        apply heq
        cases name
        cases n
        exact congrArg HeaderName.mk htext
      rw [htext]
      simp [lookup_map_names value name rest, heq]

/-- A header field reads as its values, whatever else there is. -/
theorem child?_headersValue (h : Headers) (name : HeaderName) :
    Context.child? name.text (headersValue h) = if h.values name = [] then none
      else some (.string (", ".intercalate ((h.values name).map Utf8.decodeLossy))) := by
  have hnodup : ((h.names.map fun n => (n.text,
      Json.string (", ".intercalate ((h.values n).map Utf8.decodeLossy)))).map Prod.fst).Nodup := by
    rw [List.map_map]
    apply (nodup_eraseDups _).map
    intro n n' htext
    cases n
    cases n'
    exact congrArg HeaderName.mk htext
  refine (Json.Members.get?_ofList hnodup name.text).trans ?_
  rw [lookup_map_names]
  simp only [Headers.mem_names]
  split <;> simp_all

/-- What of a client's request is hidden: the header fields of some names, and perhaps the body. -/
structure Hidden where
  header : HeaderName → Prop
  body : Prop

/-- Two requests of clients that differ in nothing but what is hidden. -/
structure ClientRequest.SameBut (hidden : Hidden) (r r' : ClientRequest) : Prop where
  id : r.id = r'.id
  method : r.method = r'.method
  uri : r.uri = r'.uri
  headers : ∀ name, ¬ hidden.header name → r.headers.values name = r'.headers.values name
  body : ¬ hidden.body → r.body = r'.body

/-- The traversal names nothing of the client's request that is hidden. It reads neither the request
nor its header fields as a whole. -/
def Traversal.Spares (hidden : Hidden) (t : Traversal) : Prop :=
  t.root = Variable.request.name → ∃ key keys, t.keys = key :: keys ∧
    (key = "body" ∨ key = "json_body" → ¬ hidden.body) ∧
    (key = "headers" → ∃ name rest, keys = name :: rest ∧ ¬ hidden.header ⟨name⟩)

namespace Context

variable {hidden : Hidden} {r r' : ClientRequest} {m : ResultMap} {current : Option ProducerResult}
  {t : Traversal}

theorem child?_request (r : ClientRequest) (key : String) : child? key r.value =
    [("id", Json.string r.id), ("method", .string r.method), ("path", .string r.path),
      ("url", .string r.uri.display), ("query", queryValue r.query),
      ("headers", headersValue r.headers), ("body", bytesValue r.body),
      ("json_body", jsonBodyValue r.body)].lookup key :=
  Json.Members.get?_ofList (by simp) key

theorem follow_request (h : r.SameBut hidden r') {key : String} {keys : List String}
    (hbody : key = "body" ∨ key = "json_body" → ¬ hidden.body)
    (hheaders : key = "headers" → ∃ name rest, keys = name :: rest ∧ ¬ hidden.header ⟨name⟩) :
    follow r.value (key :: keys) = follow r'.value (key :: keys) := by
  rw [follow, follow, child?_request, child?_request]
  have hpath : r.path = r'.path := congrArg Uri.path h.uri
  have hquery : r.query = r'.query := congrArg Uri.query h.uri
  by_cases hkey : key = "headers"
  · subst hkey
    obtain ⟨name, rest, rfl, hname⟩ := hheaders rfl
    show follow (headersValue r.headers) (name :: rest) =
      follow (headersValue r'.headers) (name :: rest)
    rw [follow, follow, child?_headersValue r.headers ⟨name⟩, child?_headersValue r'.headers ⟨name⟩,
      h.headers _ hname]
  by_cases hreads : key = "body" ∨ key = "json_body"
  · simp only [List.lookup_cons, beq_eq_false_iff_ne.2 hkey, h.id, h.method, h.uri, hpath, hquery,
      h.body (hbody hreads)]
  · rw [not_or] at hreads
    simp only [List.lookup_cons, beq_eq_false_iff_ne.2 hkey, beq_eq_false_iff_ne.2 hreads.1,
      beq_eq_false_iff_ne.2 hreads.2, h.id, h.method, h.uri, hpath, hquery]

theorem lookup_of_spares (h : r.SameBut hidden r') (ht : t.Spares hidden) :
    (build r m current).lookup t = (build r' m current).lookup t := by
  obtain ⟨root, keys⟩ := t
  rw [lookup_build, lookup_build]
  by_cases hroot : root = Variable.request.name
  · subst hroot
    obtain ⟨key, keys, rfl, hbody, hheaders⟩ := ht rfl
    exact congrArg Except.ok (follow_request h hbody hheaders)
  · have hfields : (fields r m current).lookup root = (fields r' m current).lookup root := by
      simp only [fields, List.lookup_cons, beq_eq_false_iff_ne.2 hroot]
    rw [hfields]

end Context

namespace Run

variable {s s' : Setting} {d d' : Desk} {p : Producer} {cell : Bool}

/-! ## Calls -/

/-- What a producer does when it is called, given what comes of its attributes. It fails without a
call; or it makes one call, of this request, and has the result that is made of the end of the call,
at once or as soon as the call is due, unless the run is cancelled before. -/
inductive Invoked (s : Setting) (d : Desk) (p : Producer) :
    Except Failure (List Nat × BackendRequest) → Desk × Activity → Prop
  | declined {f : Failure} {e : Desk} (hcalls : e.board.calls = d.board.calls) :
      Invoked s d p (.error f) (e, .finished (.results [.failed p.name f]))
  | answered {expected : List Nat} {request : BackendRequest} {e : Desk}
      (hcalls : e.board.calls = d.board.calls ++ [⟨p, request, d.board.now, .answered⟩]) :
      Invoked s d p (.ok (expected, request)) (e, .finished (.results
        [outcome s.client d.board.results p expected request
          (s.backends p (d.board.callCount p) request).ending]))
  | waits {expected : List Nat} {request : BackendRequest} {e : Desk} {o : Ongoing}
      (hcalls : e.board.calls = d.board.calls ++ [⟨p, request, d.board.now, .running⟩])
      (hpoll : ∀ later : Desk, later.board.cancelled = false →
        (pollCall s later o).2 = .calling o ∨ (pollCall s later o).2 = .finished (.results
          [outcome s.client later.board.results p expected request
            (s.backends p (d.board.callCount p) request).ending])) :
      Invoked s d p (.ok (expected, request)) (e, .calling o)

theorem board_sent (s : Setting) (d : Desk) (p : Producer) (request : BackendRequest) :
    (sent s d p request).board.calls = d.board.calls ++ [⟨p, request, d.board.now, .running⟩] ∧
      (sent s d p request).board.results = d.board.results := by
  unfold sent
  dsimp only
  split
  · rw [Desk.cancelled_cancel]
    exact ⟨rfl, rfl⟩
  · exact ⟨rfl, rfl⟩

theorem calls_settle (r : ProducerResult) :
    (settle d p cell r).1.board.calls = d.board.calls := by
  cases cell <;> rfl

/-- A producer makes of its attributes what is in them, and its call accordingly. -/
theorem invoked_invoke (s : Setting) (p : Producer) (cell : Bool)
    (hlive : d.board.cancelled = false) :
    Invoked s d p (p.prepare s.client d.board.results) (invoke s d p cell) := by
  cases hprepare : p.prepare s.client d.board.results with
  | error f =>
    rw [invoke_of_error hlive hprepare]
    exact .declined (calls_settle _)
  | ok made =>
    obtain ⟨expected, request⟩ := made
    obtain ⟨hcalls, hresults⟩ := board_sent s d p request
    rw [invoke_of_ok hlive hprepare]
    dsimp only
    -- either the backend has replied at once, or the call has to be polled
    split
    · have hlog : ((sent s d p request).board.calls.modify d.board.calls.length
          fun call => { call with state := .answered }) =
            d.board.calls ++ [⟨p, request, d.board.now, .answered⟩] := by
        rw [hcalls]
        simp [List.modify_eq_take_cons_drop]
      unfold complete callResult
      rw [hresults]
      exact .answered ((calls_settle _).trans hlog)
    · refine .waits hcalls fun later hlater => ?_
      simp only [pollCall, hlater, Bool.false_eq_true, if_false]
      split
      · exact .inr rfl
      · exact .inl rfl

/-- In two runs that are not cancelled, and in which the attributes before the call read the same, a
producer sends the same request or fails alike without a call, provided that it is no proxy or the
requests of the clients are forwarded alike. When the call comes to the same end, and the attributes
that edit the response read the same then, the result is the same. In particular, whatever header
fields of the client are hidden, and its body too, a producer that is no proxy makes the same call as
long as its attributes name nothing of these. -/
theorem leaf_isolated (p : Producer) (cell cell' : Bool) (hlive : d.board.cancelled = false)
    (hlive' : d'.board.cancelled = false) :
    ((p.kind = .proxy → s.client.ForwardedAlike s'.client) →
      (Context.build s.client d.board.results none).Agree
        (.build s'.client d'.board.results none) p.attributes.requestSide →
      ∃ x, Invoked s d p x (invoke s d p cell) ∧ Invoked s' d' p x (invoke s' d' p cell') ∧
        ∀ expected request, x = .ok (expected, request) →
          let ending := (s.backends p (d.board.callCount p) request).ending
          let ending' := (s'.backends p (d'.board.callCount p) request).ending
          ending = ending' → ∀ m m' : ResultMap,
            (∀ response, ending = .response response →
              (Context.build s.client m (some (.success p.name request response))).Agree
                (.build s'.client m' (some (.success p.name request response)))
                p.attributes.responseSide) →
            outcome s.client m p expected request ending =
              outcome s'.client m' p expected request ending') ∧
    (p.kind = .request → ∀ hidden, s.client.SameBut hidden s'.client →
      d.board.results = d'.board.results →
      (∀ field ∈ p.attributes.requestSide, ∀ t ∈ field.2.traversals, t.Spares hidden) →
      ∃ x, Invoked s d p x (invoke s d p cell) ∧ Invoked s' d' p x (invoke s' d' p cell')) := by
  have hmade := invoked_invoke s p cell hlive
  have hmade' := invoked_invoke s' p cell' hlive'
  constructor
  · intro hclient hagree
    rw [← Producer.prepare_eq_of_agree hclient hagree] at hmade'
    refine ⟨_, hmade, hmade', ?_⟩
    intro expected request _ ending ending' hending m m' hresponse
    rw [← hending]
    exact outcome_eq_of_agree hresponse
  · intro hkind hidden hsame hresults hspares
    have hclient : p.kind = .proxy → s.client.ForwardedAlike s'.client := by
      intro hproxy
      rw [hkind] at hproxy
      cases hproxy
    have hagree : (Context.build s.client d.board.results none).Agree
        (.build s'.client d'.board.results none) p.attributes.requestSide := by
      intro field hfield t ht
      rw [← hresults]
      exact Context.lookup_of_spares hsame (hspares field hfield t ht)
    rw [← Producer.prepare_eq_of_agree hclient hagree] at hmade'
    exact ⟨_, hmade, hmade'⟩

/-- A producer that passes on the language of the client, and no cookies. -/
theorem leaf_isolated_of_cookies :
    let p : Producer :=
      { Producer.plain 0 "first" with
        attributes :=
          { headers := some (.object [("accept-language",
              .reference ⟨Variable.request.name, ["headers", "accept-language"]⟩)]) } }
    let s (cookie : Bytes) : Setting :=
      { client :=
          { ClientRequest.plain with
            headers := ⟨[(⟨"accept-language"⟩, [100, 101]), (⟨"cookie"⟩, cookie)]⟩ }
        backends := fun _ _ _ => { ending := .response { status := 200 } } }
    let d : Desk := { board := .fresh (.call p) false, task := 0, turn := 0, tasks := 1 }
    let hidden : Hidden := ⟨(· = ⟨"cookie"⟩), True⟩
    d.board.cancelled = false ∧ p.kind = .request ∧
      (s [97]).client.SameBut hidden (s [98]).client ∧
      (∀ field ∈ p.attributes.requestSide, ∀ t ∈ field.2.traversals, t.Spares hidden) ∧
      (∃ x, Invoked (s [97]) d p x (invoke (s [97]) d p true) ∧
        Invoked (s [98]) d p x (invoke (s [98]) d p true)) ∧
      (invoke (s [97]) d p true).1.board.calls.map (·.request.headers.fields) =
        [[(⟨"accept-language"⟩, [100, 101])]] := by
  intro p s d hidden
  have hsame : (s [97]).client.SameBut hidden (s [98]).client := by
    refine ⟨rfl, rfl, rfl, fun name hname => ?_, fun hbody => absurd trivial hbody⟩
    have hne : (⟨"cookie"⟩ : HeaderName) ≠ name := fun heq => hname heq.symm
    simp [s, Headers.values, List.filter_cons, hne]
  have hspares : ∀ field ∈ p.attributes.requestSide, ∀ t ∈ field.2.traversals,
      t.Spares hidden := by
    intro field hfield t ht
    simp [p, Attributes.requestSide, givenFields, Rule.fields] at hfield
    subst hfield
    simp [Expression.traversals, Expression.fieldTraversals] at ht
    subst ht
    intro _
    exact ⟨"headers", ["accept-language"], rfl, by simp, fun _ => ⟨_, _, rfl, by simp [hidden]⟩⟩
  have hlive : d.board.cancelled = false := rfl
  have hcalls := (leaf_isolated p true true hlive hlive).2 rfl hidden hsame rfl hspares
  exact ⟨hlive, rfl, hsame, hspares, hcalls, by cbv⟩

end Run

end Gateway
