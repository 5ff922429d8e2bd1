import Gateway.Producer.Outbound
import Gateway.Proofs.Evaluation.Lookup

/-!
# Gateway.Proofs.Evaluation.Reads — what the attributes of a producer read

The value of an expression depends on its traversals and on nothing else. So two sets of results
that hold the same under the names that a producer refers to make it send the same request and make
the same of the response, whatever else they hold, unless it reads all results at once or, before its
call, those of `default` by an alias.

This is what makes the declared references a description of what a producer needs. The compiler takes
its dependencies from them, and a producer is run as soon as these are done, with a map in which other
results may be or not be. If it read anything else, what it sends would be a matter of time.

There are two ways to read something else, and `Selective` excludes both. A traversal without keys reads
all published results as one object. And an alias stands for the result of `default` as long as there is
none at hand: before the call it reads a producer that it does not name. After the call the alias is the
producer's own result, so on the response side it is harmless.

The lemmas are about two clients as well as two maps. Nothing but a proxy looks at the client except
through a variable, and with the client left open the same lemmas serve where requests are compared.
-/

set_option autoImplicit false

namespace Gateway

/-- Whether the traversal reads all published responses or requests at once. -/
def Traversal.isBare (t : Traversal) : Bool :=
  t.keys.isEmpty &&
    (t.root == Variable.backendResponses.name || t.root == Variable.backendRequests.name)

theorem mem_references {fields : List (String × Expression)} {name : String} :
    name ∈ references fields ↔
      ∃ field ∈ fields, ∃ t ∈ field.2.traversals, t.producer? = some name := by
  rw [references, List.mem_eraseDups, List.mem_filterMap]
  constructor
  · rintro ⟨t, ht, hname⟩
    obtain ⟨field, hfield, ht⟩ := List.mem_flatMap.1 ht
    exact ⟨field, hfield, t, ht, hname⟩
  · rintro ⟨field, hfield, t, ht, hname⟩
    exact ⟨t, List.mem_flatMap.2 ⟨field, hfield, ht⟩, hname⟩

namespace Context

variable {c c' : Context}

/-! ## Expressions -/

theorem mapM_partText_congr {parts : List TemplatePart}
    (h : ∀ t ∈ Expression.partTraversals parts, c.lookup t = c'.lookup t) :
    parts.mapM c.partText = parts.mapM c'.partText := by
  induction parts with
  | nil => rfl
  | cons part rest ih =>
    rw [List.mapM_cons, List.mapM_cons]
    cases part with
    | text s => rw [ih h]; rfl
    | reference t =>
      have hpart : c.partText (.reference t) = c'.partText (.reference t) := by
        rw [partText, partText, h t List.mem_cons_self]
      rw [hpart, ih fun t' ht' => h t' (List.mem_cons_of_mem t ht')]

mutual

/-- Contexts that agree on the traversals of an expression give it the same value. -/
theorem evaluate_congr : ∀ {e : Expression}, (∀ t ∈ e.traversals, c.lookup t = c'.lookup t) →
    c.evaluate e = c'.evaluate e
  | .literal _, _ => rfl
  | .reference t, h => h t (List.mem_singleton_self t)
  | .template _, h => congrArg (Except.map _) (mapM_partText_congr h)
  | .list _, h => congrArg (Except.map _) (evaluateItems_congr h)
  | .object _, h => congrArg (Except.map _) (evaluateFields_congr h)

theorem evaluateItems_congr : ∀ {items : List Expression},
    (∀ t ∈ Expression.itemTraversals items, c.lookup t = c'.lookup t) →
    c.evaluateItems items = c'.evaluateItems items
  | [], _ => rfl
  | item :: rest, h => by
    have hitem := evaluate_congr (e := item) fun t ht => h t (List.mem_append_left _ ht)
    have hrest := evaluateItems_congr fun t ht => h t (List.mem_append_right item.traversals ht)
    rw [evaluateItems, evaluateItems, hitem, hrest]

theorem evaluateFields_congr : ∀ {fields : List (String × Expression)},
    (∀ t ∈ Expression.fieldTraversals fields, c.lookup t = c'.lookup t) →
    c.evaluateFields fields = c'.evaluateFields fields
  | [], _ => rfl
  | (key, item) :: rest, h => by
    have hitem := evaluate_congr (e := item) fun t ht => h t (List.mem_append_left _ ht)
    have hrest := evaluateFields_congr fun t ht => h t (List.mem_append_right item.traversals ht)
    rw [evaluateFields, evaluateFields, hitem, hrest]

end

/-! ## Attributes -/

/-- The contexts give attributes the same values. -/
def Alike (c c' : Context) (fields : List (String × Option Expression)) : Prop :=
  ∀ field ∈ fields, c.evaluate? field.2 = c'.evaluate? field.2

theorem Alike.mono {fields fields' : List (String × Option Expression)}
    (h : c.Alike c' fields) (hsub : fields' ⊆ fields) : c.Alike c' fields' :=
  fun field hfield => h field (hsub hfield)

theorem Alike.attribute? {fields : List (String × Option Expression)} (h : c.Alike c' fields)
    {name : String} {e : Option Expression} (hmem : (name, e) ∈ fields) (subject : String) :
    c.attribute? subject e = c'.attribute? subject e :=
  congrArg (blame subject) (h _ hmem)

theorem alike_of_lookup {fields : List (String × Option Expression)}
    (h : ∀ field ∈ givenFields fields, ∀ t ∈ field.2.traversals, c.lookup t = c'.lookup t) :
    c.Alike c' fields := by
  rintro ⟨name, e⟩ hmem
  cases e with
  | none => rfl
  | some e =>
    refine congrArg (Except.map some) (evaluate_congr (h (name, e) ?_))
    exact List.mem_filterMap.2 ⟨_, hmem, rfl⟩

/-- What a traversal reads is what is published under the name that it goes to; an alias reads the
result at hand, if there is one. -/
theorem lookup_congr {client : ClientRequest} {m m' : ResultMap}
    {current current' : Option ProducerResult} {t : Traversal} (hm : m.Unique) (hm' : m'.Unique)
    (hbare : t.isBare = false) (hname : ∀ name, t.producer? = some name → m.get? name = m'.get? name)
    (halias : t.isAlias = true → ∃ r, current = some r ∧ current' = some r) :
    (build client m current).lookup t = (build client m' current').lookup t := by
  obtain ⟨root, keys⟩ := t
  by_cases hresponses : root = Variable.backendResponses.name
  · subst hresponses
    cases keys with
    | nil => exact absurd hbare (by simp [Traversal.isBare])
    | cons name keys =>
      rw [(lookup_producer hm client current name keys).1,
        (lookup_producer hm' client current' name keys).1, hname name (by simp [Traversal.producer?])]
  by_cases hrequests : root = Variable.backendRequests.name
  · subst hrequests
    cases keys with
    | nil => exact absurd hbare (by simp [Traversal.isBare])
    | cons name keys =>
      rw [(lookup_producer hm client current name keys).2,
        (lookup_producer hm' client current' name keys).2, hname name (by simp [Traversal.producer?])]
  -- what is left are the variables that do not hold published results
  rw [lookup_build, lookup_build]
  by_cases hat : Traversal.isAlias ⟨root, keys⟩ = true
  · obtain ⟨r, rfl, rfl⟩ := halias hat
    have hfields : (fields client m (some r)).lookup root = (fields client m' (some r)).lookup root := by
      simp only [fields, List.lookup_cons, beq_eq_false_iff_ne.2 hresponses,
        beq_eq_false_iff_ne.2 hrequests]
      rfl
    rw [hfields]
  · have hfields : (fields client m current).lookup root = (fields client m' current').lookup root := by
      simp only [Traversal.isAlias, Bool.or_eq_true, beq_iff_eq, not_or] at hat
      simp only [fields, List.lookup_cons, beq_eq_false_iff_ne.2 hresponses,
        beq_eq_false_iff_ne.2 hrequests, beq_eq_false_iff_ne.2 hat.1, beq_eq_false_iff_ne.2 hat.2]
    rw [hfields]

end Context

open Context (Alike)

variable {c c' : Context}

theorem Rule.evaluate_congr {r : Rule} {subject : String} (h : c.Alike c' (r.fields subject)) :
    r.evaluate c subject = r.evaluate c' subject := by
  unfold evaluate
  rw [h.attribute? (show ("remove_" ++ subject, r.remove) ∈ _ by simp [fields]),
    h.attribute? (show ("set_" ++ subject, r.set) ∈ _ by simp [fields]),
    h.attribute? (show ("add_" ++ subject, r.add) ∈ _ by simp [fields])]

namespace Attributes

variable {a : Attributes}

/-- The attributes that count before the call, with their names. -/
def before (a : Attributes) : List (String × Option Expression) :=
  [("method", a.method), ("url", a.url), ("path", a.path), ("body", a.body),
      ("json_body", a.jsonBody), ("form_body", a.formBody), ("headers", a.headers)]
    ++ a.requestHeaders.fields "request_headers" ++ a.queryParams.fields "query_params"
    ++ a.formParams.fields "form_params" ++ [("expected_status", a.expectedStatus)]

theorem evalMethod_congr (h : c.Alike c' a.before) : a.evalMethod c = a.evalMethod c' := by
  unfold evalMethod
  rw [h.attribute? (show ("method", a.method) ∈ _ by simp [before])]

theorem evalUrl_congr (h : c.Alike c' a.before) : a.evalUrl c = a.evalUrl c' := by
  unfold evalUrl
  rw [h.attribute? (show ("url", a.url) ∈ _ by simp [before])]

theorem evalPath_congr (h : c.Alike c' a.before) : a.evalPath c = a.evalPath c' := by
  unfold evalPath
  rw [h.attribute? (show ("path", a.path) ∈ _ by simp [before])]

theorem evalBody_congr (h : c.Alike c' a.before) : a.evalBody c = a.evalBody c' := by
  unfold evalBody
  rw [h.attribute? (show ("json_body", a.jsonBody) ∈ _ by simp [before]),
    h.attribute? (show ("form_body", a.formBody) ∈ _ by simp [before]),
    h.attribute? (show ("body", a.body) ∈ _ by simp [before])]

theorem evalExpected_congr (h : c.Alike c' a.before) : a.evalExpected c = a.evalExpected c' := by
  unfold evalExpected
  rw [h.attribute? (show ("expected_status", a.expectedStatus) ∈ _ by simp [before])]

theorem editRequest_congr (h : c.Alike c' a.before) (r : BackendRequest) :
    a.editRequest c r = a.editRequest c' r := by
  have hrequest : c.Alike c' (a.requestHeaders.fields "request_headers") :=
    h.mono fun field hfield => by simp [before, hfield]
  have hquery : c.Alike c' (a.queryParams.fields "query_params") :=
    h.mono fun field hfield => by simp [before, hfield]
  have hform : c.Alike c' (a.formParams.fields "form_params") :=
    h.mono fun field hfield => by simp [before, hfield]
  unfold editRequest
  rw [h.attribute? (show ("headers", a.headers) ∈ _ by simp [before]),
    Rule.evaluate_congr hrequest, Rule.evaluate_congr hquery, Rule.evaluate_congr hform]

end Attributes

/-- Two requests of clients that a proxy forwards alike. -/
structure ClientRequest.ForwardedAlike (r r' : ClientRequest) : Prop where
  method : r.method = r'.method
  pathAndQuery : r.pathAndQuery = r'.pathAndQuery
  headers : r.headers = r'.headers
  body : r.body = r'.body

theorem ClientRequest.ForwardedAlike.refl (r : ClientRequest) : r.ForwardedAlike r :=
  ⟨rfl, rfl, rfl, rfl⟩

namespace Producer

variable {p : Producer} {client client' : ClientRequest} {m m' : ResultMap}

/-- A request producer takes nothing from the client but what its attributes read. -/
theorem outbound_congr (hclient : p.kind = .proxy → client.ForwardedAlike client')
    (h : c.Alike c' p.attributes.before) : p.outbound client c = p.outbound client' c' := by
  unfold outbound
  cases hkind : p.kind with
  | request =>
    have hown : ownRequest p.attributes c = ownRequest p.attributes c' := by
      unfold ownRequest
      rw [Attributes.evalBody_congr h, Attributes.evalMethod_congr h, Attributes.evalUrl_congr h]
    simp only [hown, Attributes.editRequest_congr h]
  | proxy =>
    obtain ⟨hmethod, htarget, hheaders, hbody⟩ := hclient hkind
    have hforwarded : forwarded p.attributes client c = forwarded p.attributes client' c' := by
      unfold forwarded
      rw [Attributes.evalMethod_congr h, Attributes.evalUrl_congr h, Attributes.evalPath_congr h,
        Attributes.evalBody_congr h, hmethod, htarget, hheaders, hbody]
    simp only [hforwarded, Attributes.editRequest_congr h]

theorem prepare_congr (hclient : p.kind = .proxy → client.ForwardedAlike client')
    (h : (Context.build client m none).Alike (.build client' m' none) p.attributes.before) :
    p.prepare client m = p.prepare client' m' := by
  unfold prepare
  simp only [Attributes.evalExpected_congr h, outbound_congr hclient h]

theorem editResponse_congr {sent : BackendRequest} {response : Response}
    (h : (Context.build client m (some (.success p.name sent response))).Alike
      (.build client' m' (some (.success p.name sent response)))
      (p.attributes.responseHeaders.fields "response_headers")) :
    p.editResponse client m sent response = p.editResponse client' m' sent response := by
  unfold editResponse
  simp only [Rule.evaluate_congr h]

/-- An attribute of the producer reads the request or response of a producer of this name. -/
def RefersTo (p : Producer) (name : String) : Prop :=
  ∃ field ∈ p.attributes.requestSide ++ p.attributes.responseSide,
    ∃ t ∈ field.2.traversals, t.producer? = some name

/-- The request side of the producer reads the request or response of a producer of its own name. -/
def ReadsItself (p : Producer) : Prop :=
  ∃ field ∈ p.attributes.requestSide, ∃ t ∈ field.2.traversals, t.producer? = some p.name

/-- The references of a producer are on its request side or, other than to itself, on its response
side. -/
theorem mem_references_of_refersTo {p : Producer} {name : String} (h : p.RefersTo name)
    (hne : name ≠ p.name) : name ∈ p.requestReferences ++ p.responseReferences := by
  obtain ⟨field, hfield, t, ht, hname⟩ := h
  rcases List.mem_append.1 hfield with hfield | hfield
  · exact List.mem_append_left _ (mem_references.2 ⟨field, hfield, t, ht, hname⟩)
  · refine List.mem_append_right _ (List.mem_filter.2 ⟨?_, decide_eq_true hne⟩)
    exact mem_references.2 ⟨field, hfield, t, ht, hname⟩

theorem refersTo_of_mem_references {p : Producer} {name : String}
    (h : name ∈ p.requestReferences ++ p.responseReferences) : p.RefersTo name := by
  rcases List.mem_append.1 h with h | h
  · obtain ⟨field, hfield, ht⟩ := mem_references.1 h
    exact ⟨field, List.mem_append_left _ hfield, ht⟩
  · obtain ⟨field, hfield, ht⟩ := mem_references.1 (List.mem_filter.1 h).1
    exact ⟨field, List.mem_append_right _ hfield, ht⟩

/-- The producer reads results by name: never all of them at once, and before its call, when an alias
would stand for those of `default`, by no alias. -/
structure Selective (p : Producer) : Prop where
  named : ∀ field ∈ p.attributes.requestSide ++ p.attributes.responseSide,
    ∀ t ∈ field.2.traversals, t.isBare = false
  unaliased : ∀ field ∈ p.attributes.requestSide, ∀ t ∈ field.2.traversals, t.isAlias = false

namespace Selective

variable {client : ClientRequest} {m m' : ResultMap}

/-- So it sends the same request when the names that it refers to hold the same. -/
theorem prepare_eq (h : p.Selective) (hm : m.Unique) (hm' : m'.Unique)
    (hsame : ∀ name, p.RefersTo name → m.get? name = m'.get? name) :
    p.prepare client m = p.prepare client m' := by
  apply prepare_congr fun _ => .refl client
  apply Context.alike_of_lookup
  intro field hfield t ht
  have hmem := List.mem_append_left p.attributes.responseSide hfield
  refine Context.lookup_congr hm hm' (h.named field hmem t ht) (fun name hname => ?_) fun halias => ?_
  · exact hsame name ⟨field, hmem, t, ht, hname⟩
  · rw [h.unaliased field hfield t ht] at halias
    cases halias

theorem editResponse_eq (h : p.Selective) (hm : m.Unique) (hm' : m'.Unique)
    (hsame : ∀ name, p.RefersTo name → m.get? name = m'.get? name) (sent : BackendRequest)
    (response : Response) :
    p.editResponse client m sent response = p.editResponse client m' sent response := by
  apply editResponse_congr
  apply Context.alike_of_lookup
  intro field hfield t ht
  have hmem := List.mem_append_right p.attributes.requestSide hfield
  refine Context.lookup_congr hm hm' (h.named field hmem t ht) (fun name hname => ?_) fun _ => ?_
  · exact hsame name ⟨field, hmem, t, ht, hname⟩
  · exact ⟨_, rfl, rfl⟩

end Selective

end Producer

end Gateway
