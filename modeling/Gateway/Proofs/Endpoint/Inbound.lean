import Gateway.Endpoint.Inbound
import Gateway.Proofs.Evaluation.Failing

/-!
# Gateway.Proofs.Endpoint.Inbound — modifiers of requests that fail

The modifiers of an endpoint edit a request one after another. `RequestModifiers.Fails` says what can
go wrong with each of them and how it is worded, without regard to the others. The request is made if
and only if nothing goes wrong, and what is reported otherwise is one of the things that did.

It is not said which. The order in which modifiers are looked at decides it, and it is the one thing
about them that a client could not rely on: a request with two faults is refused either way. So `Fails`
has a case for each stage, stated for what the stages before it came to, and none for their order. A
reordering of independent stages would change proofs here, not statements.

Both directions go along the stages. In the first every stage either fails in its own way or hands on
what it came to, which is what `FailsOnly` is made for. In the second all stages came to values, and
each way to fail contradicts one of them. The expressions are evaluated in one context, that of the
request as it came in, so a fault of an expression can be told without the stages at all.
-/

set_option autoImplicit false

namespace Gateway

/-- The fault is that the expression of one of these attributes has no value. -/
def Fault.IsOf (fields : List (String × Option Expression)) (c : Context) (f : Fault) : Prop :=
  ∃ e, (f.subject, some e) ∈ fields ∧ c.evaluate e = .error f.error

theorem Context.failsOnly_attribute? {fields : List (String × Option Expression)} (c : Context)
    {subject : String} {given : Option Expression} (hmem : (subject, given) ∈ fields) :
    FailsOnly (Fault.IsOf fields c) (c.attribute? subject given) := by
  apply FailsOnly.mapError_of_eq
  intro error herror
  cases given with
  | none => cases herror
  | some e =>
    refine ⟨e, hmem, ?_⟩
    cases hvalue : c.evaluate e with
    | ok value =>
      rw [Context.evaluate?, hvalue] at herror
      cases herror
    | error error' =>
      rw [Context.evaluate?, hvalue] at herror
      cases herror
      rfl

theorem Rule.failsOnly_evaluate {rule : Rule} {subject : String}
    {fields : List (String × Option Expression)} (hsub : rule.fields subject ⊆ fields)
    (c : Context) : FailsOnly (Fault.IsOf fields c) (rule.evaluate c subject) := by
  unfold evaluate
  apply (c.failsOnly_attribute? (hsub (by simp [Rule.fields]))).bind
  intro remove
  apply (c.failsOnly_attribute? (hsub (by simp [Rule.fields]))).bind
  intro set
  apply (c.failsOnly_attribute? (hsub (by simp [Rule.fields]))).bind
  intro add
  exact .pure _

theorem Context.attribute?_some {c : Context} {subject : String} {e : Expression}
    {value : Option Json} (h : c.attribute? subject (some e) = .ok value) :
    ∃ v, c.evaluate e = .ok v ∧ value = some v := by
  cases hvalue : c.evaluate e with
  | ok v =>
    rw [attribute?, evaluate?, hvalue] at h
    cases h
    exact ⟨v, rfl, rfl⟩
  | error error =>
    rw [attribute?, evaluate?, hvalue] at h
    cases h

/-- A rule that evaluates gives a value to each of its attributes. -/
theorem Rule.evaluate_of_mem {rule : Rule} {c : Context} {subject name : String} {edit : Edit}
    {e : Expression} (h : rule.evaluate c subject = .ok edit)
    (hmem : (name, some e) ∈ rule.fields subject) : ∃ v, c.evaluate e = .ok v := by
  obtain ⟨remove, hremove, h⟩ := exists_of_bind h
  obtain ⟨set, hset, h⟩ := exists_of_bind h
  obtain ⟨add, hadd, -⟩ := exists_of_bind h
  simp only [fields, List.mem_cons, Prod.mk.injEq, List.not_mem_nil, or_false] at hmem
  rcases hmem with ⟨-, hgiven⟩ | ⟨-, hgiven⟩ | ⟨-, hgiven⟩
  · exact (Context.attribute?_some (hgiven ▸ hset)).imp fun _ => And.left
  · exact (Context.attribute?_some (hgiven ▸ hadd)).imp fun _ => And.left
  · exact (Context.attribute?_some (hgiven ▸ hremove)).imp fun _ => And.left

theorem Edit.eq_of_isEmpty (e : Edit) (h : e.isEmpty = true) : e = {} := by
  obtain ⟨remove, set, add⟩ := e
  simp only [isEmpty, Bool.and_eq_true, Option.isNone_iff_eq_none] at h
  obtain ⟨⟨rfl, rfl⟩, rfl⟩ := h
  rfl

/-- As a path, the value would have a query or a fragment. -/
def Json.IsMarked (value : Json) : Prop := '?' ∈ value.text.toList ∨ '#' ∈ value.text.toList

/-- Only a path with a query or a fragment is refused. -/
theorem Json.requestPath_eq_error {value : Json} {error : EvalError} :
    value.requestPath = .error error ↔ value.IsMarked ∧ error = .invalidPath value.text := by
  have hcontains : (value.text.toList.contains '#' || value.text.toList.contains '?') = true ↔
      value.IsMarked := by
    rw [IsMarked, Bool.or_eq_true, List.contains_iff_mem, List.contains_iff_mem, or_comm]
  rw [requestPath, ← hcontains]
  split
  · next hempty =>
    rw [String.toList_eq_nil_iff.2 (String.isEmpty_iff.1 hempty)]
    exact ⟨nofun, fun h => absurd h.1 (by decide)⟩
  · split
    · next hmark => exact ⟨fun h => ⟨hmark, by cases h; rfl⟩, fun h => by rw [h.2]⟩
    · next hplain =>
      refine ⟨fun h => ?_, fun h => absurd h.1 hplain⟩
      split at h <;> cases h

/-- Only the target of the request is another, and that was read. -/
theorem ClientRequest.exists_of_withTarget {r moved : ClientRequest} {url : String}
    (h : r.withTarget url = .ok moved) :
    ∃ uri, moved = { r with uri } ∧
      (url ≠ r.pathAndQuery → PathAndQuery.read url >>= r.uri.withTarget = .ok uri) := by
  unfold withTarget at h
  split at h
  · next heq =>
    cases h
    exact ⟨r.uri, rfl, fun hne => absurd heq hne⟩
  · split at h
    · next uri hread =>
      cases h
      exact ⟨uri, rfl, fun _ => hread⟩
    · cases h

namespace RequestModifiers

/-- The modifiers with their names. -/
def fields (m : RequestModifiers) : List (String × Option Expression) :=
  ("path", m.path) :: (m.headers.fields "request_headers" ++ m.query.fields "query_params" ++
    m.form.fields "form_params")

theorem headers_subset (m : RequestModifiers) : m.headers.fields "request_headers" ⊆ m.fields :=
  fun _ h => List.mem_cons_of_mem _ (List.mem_append_left _ (List.mem_append_left _ h))

theorem query_subset (m : RequestModifiers) : m.query.fields "query_params" ⊆ m.fields :=
  fun _ h => List.mem_cons_of_mem _ (List.mem_append_left _ (List.mem_append_right _ h))

theorem form_subset (m : RequestModifiers) : m.form.fields "form_params" ⊆ m.fields :=
  fun _ h => List.mem_cons_of_mem _ (List.mem_append_right _ h)

/-- What expressions see of a request that no producer has run for. -/
def context (r : ClientRequest) : Context := .build r (.ofNames []) none

/-- A modifier fails on a request, and this is the error: an expression has no value, the path is
none, an edit does not apply, or what the path and the query come to is no target. -/
inductive Fails (m : RequestModifiers) (r : ClientRequest) : EndpointError → Prop
  | expression {name : String} {e : Expression} {error : EvalError}
      (hmem : (name, some e) ∈ m.fields) (hvalue : (context r).evaluate e = .error error) :
      Fails m r (.evaluation (name ++ ": " ++ error.message))
  | path {e : Expression} {value : Json} (hgiven : m.path = some e)
      (hvalue : (context r).evaluate e = .ok value) (hmark : value.IsMarked) :
      Fails m r (.configuration ("path: " ++ (EvalError.invalidPath value.text).message))
  | headers {edit : Edit} {error : EvalError}
      (hedit : m.headers.evaluate (context r) "request_headers" = .ok edit)
      (hfails : edit.headers r.headers = .error error) :
      Fails m r (.evaluation ("request headers: " ++ error.message))
  | query {url : String} {edit : Edit} {error : EvalError}
      (hpath : m.editPath (context r) r.pathAndQuery = .ok url)
      (hedit : m.query.evaluate (context r) "query_params" = .ok edit)
      (hfails : edit.onUrl url = .error error) :
      Fails m r (.evaluation ("query params: " ++ error.message))
  | target {url edited : String} {edit : Edit} {error : UriError}
      (hpath : m.editPath (context r) r.pathAndQuery = .ok url)
      (hedit : m.query.evaluate (context r) "query_params" = .ok edit)
      (hquery : edit.onUrl url = .ok edited) (hne : edited ≠ r.pathAndQuery)
      (hfails : PathAndQuery.read edited >>= r.uri.withTarget = .error error) :
      Fails m r (.evaluation ("request url " ++ quote edited ++ ": " ++ error.message))
  | form {edit : Edit} {sent : Headers} {form : Edit} {error : EvalError}
      (hedit : m.headers.evaluate (context r) "request_headers" = .ok edit)
      (hheaders : edit.headers r.headers = .ok sent) (hcarries : carriesForm r.method sent = true)
      (hform : m.form.evaluate (context r) "form_params" = .ok form)
      (hfails : form.onForm r.body = .error error) :
      Fails m r (.evaluation ("form params: " ++ error.message))

/-- A path is given for the request that has a query or a fragment. -/
def MarksPath (m : RequestModifiers) (r : ClientRequest) : Prop :=
  ∃ e value, m.path = some e ∧ (context r).evaluate e = .ok value ∧ value.IsMarked

variable {m : RequestModifiers} {r edited : ClientRequest} {error : EndpointError}

theorem Fails.kind (h : m.Fails r error) :
    error.status = 500 ∧
      (error.kind = "evaluation" ∨ error.kind = "configuration" ∧ m.MarksPath r) := by
  cases h with
  | path hgiven hvalue hmark => exact ⟨rfl, .inr ⟨rfl, _, _, hgiven, hvalue, hmark⟩⟩
  | expression | headers | query | target | form => exact ⟨rfl, .inl rfl⟩

/-! ## What is reported has failed -/

theorem failsOnly_orReject {α : Type} {x : Except Fault α}
    (hx : FailsOnly (Fault.IsOf m.fields (context r)) x) : FailsOnly (m.Fails r) (orReject x) := by
  apply FailsOnly.mapError_of_eq
  intro f hf
  obtain ⟨e, hmem, hvalue⟩ := hx f hf
  exact .expression hmem hvalue

theorem failsOnly_blame {α : Type} {subject : String} {x : Except EvalError α}
    (h : ∀ error, x = .error error → m.Fails r (.evaluation (subject ++ ": " ++ error.message))) :
    FailsOnly (m.Fails r) (orReject (blame subject x)) := by
  apply FailsOnly.mapError_of_eq
  intro f hf
  cases x with
  | ok a => cases hf
  | error error =>
    cases hf
    exact h error rfl

theorem failsOnly_editPath (url : String) :
    FailsOnly (m.Fails r) (m.editPath (context r) url) := by
  apply (failsOnly_orReject ((context r).failsOnly_attribute? List.mem_cons_self)).bind_of_eq
  intro value hvalue
  cases value with
  | none => exact .pure _
  | some value =>
    dsimp only
    split
    · next error herror =>
      obtain ⟨hmark, rfl⟩ := Json.requestPath_eq_error.1 herror
      cases hgiven : m.path with
      | none =>
        rw [hgiven] at hvalue
        cases hvalue
      | some e =>
        rw [hgiven] at hvalue
        obtain ⟨_, he, heq⟩ := Context.attribute?_some (mapError_eq_ok.1 hvalue)
        cases heq
        exact .error (.path hgiven he hmark)
    · exact .pure _
    · exact .pure _

/-- Only what has failed is reported. -/
theorem failsOnly_apply : FailsOnly (m.Fails r) (m.apply r) := by
  have hevaluate : ∀ {rule : Rule} {subject : String}, rule.fields subject ⊆ m.fields →
      FailsOnly (m.Fails r) (orReject (rule.evaluate (context r) subject)) :=
    fun hsub => failsOnly_orReject (Rule.failsOnly_evaluate hsub (context r))
  unfold apply
  split
  · exact .pure _
  -- what the stages before came to is what each way to fail is stated for
  apply (failsOnly_editPath _).bind_of_eq
  intro path hpath
  apply (hevaluate m.headers_subset).bind_of_eq
  intro edit hedit
  rw [orReject, mapError_eq_ok] at hedit
  apply (failsOnly_blame fun error herror => .headers hedit herror).bind_of_eq
  intro headers hheaders
  rw [orReject, blame, mapError_eq_ok, mapError_eq_ok] at hheaders
  apply (hevaluate m.query_subset).bind_of_eq
  intro query hquery
  rw [orReject, mapError_eq_ok] at hquery
  apply (failsOnly_blame fun error herror => .query hpath hquery herror).bind_of_eq
  intro url hurl
  rw [orReject, blame, mapError_eq_ok, mapError_eq_ok] at hurl
  apply FailsOnly.bind_of_eq
  · unfold ClientRequest.withTarget
    split
    · exact .pure _
    · next hne =>
      split
      · exact .pure _
      · next error herror => exact .error (.target hpath hquery hurl hne herror)
  intro moved hmoved
  obtain ⟨uri, rfl, -⟩ := ClientRequest.exists_of_withTarget hmoved
  apply (hevaluate m.form_subset).bind_of_eq
  intro form hform
  rw [orReject, mapError_eq_ok] at hform
  split
  · exact .pure _
  · next hskipped =>
    have hcarries : carriesForm r.method headers = true := by
      simp only [Bool.or_eq_true, Bool.not_eq_true', not_or, Bool.not_eq_false] at hskipped
      exact hskipped.2
    refine FailsOnly.bind (failsOnly_blame fun error herror => ?_) fun _ => .pure _
    exact .form hedit hheaders hcarries hform herror

/-! ## What has failed is reported -/

theorem eq_of_isEmpty (h : m.isEmpty = true) : m = {} := by
  obtain ⟨path, ⟨set, add, remove⟩, ⟨set', add', remove'⟩, ⟨set'', add'', remove''⟩⟩ := m
  simp only [isEmpty, Rule.isEmpty, Bool.and_eq_true, Option.isNone_iff_eq_none] at h
  obtain ⟨⟨⟨rfl, ⟨rfl, rfl⟩, rfl⟩, ⟨rfl, rfl⟩, rfl⟩, ⟨rfl, rfl⟩, rfl⟩ := h
  rfl

theorem not_fails_of_isEmpty (h : m.isEmpty = true) : ¬ m.Fails r error := by
  cases eq_of_isEmpty h
  intro hfails
  cases hfails with
  | expression hmem => simp [fields, Rule.fields] at hmem
  | path hgiven => cases hgiven
  | headers hedit hfails =>
    cases hedit
    cases hfails
  | query _ hedit hfails =>
    cases hedit
    cases hfails
  | target hpath hedit hquery hne =>
    cases hpath
    cases hedit
    cases hquery
    exact hne rfl
  | form _ _ _ hform hfails =>
    cases hform
    cases hfails

/-- A path that was edited has a value, and it is a path. -/
theorem path_of_editPath {c : Context} {url url' : String} {e : Expression}
    (h : m.editPath c url = .ok url') (hgiven : m.path = some e) :
    ∃ v path, c.evaluate e = .ok v ∧ v.requestPath = .ok path := by
  obtain ⟨value, hvalue, h⟩ := exists_of_bind h
  rw [orReject, mapError_eq_ok, hgiven] at hvalue
  obtain ⟨v, he, rfl⟩ := Context.attribute?_some hvalue
  cases hpath : v.requestPath with
  | ok path => exact ⟨v, path, he, hpath⟩
  | error error =>
    simp only [hpath] at h
    cases h

/-- When a request is made, nothing has failed. -/
theorem not_fails_of_apply (h : m.apply r = .ok edited) : ¬ m.Fails r error := by
  unfold apply at h
  split at h
  · next hempty => exact not_fails_of_isEmpty hempty
  -- every stage came to a value, and a way to fail says that one of them did not
  obtain ⟨path, hpath, h⟩ := exists_of_bind h
  obtain ⟨edit, hedit, h⟩ := exists_of_bind h
  obtain ⟨headers, hheaders, h⟩ := exists_of_bind h
  obtain ⟨query, hquery, h⟩ := exists_of_bind h
  obtain ⟨url, hurl, h⟩ := exists_of_bind h
  obtain ⟨moved, hmoved, h⟩ := exists_of_bind h
  obtain ⟨form, hform, h⟩ := exists_of_bind h
  rw [orReject, mapError_eq_ok] at hedit hheaders hquery hurl hform
  rw [blame, mapError_eq_ok] at hheaders hurl
  obtain ⟨uri, rfl, hread⟩ := ClientRequest.exists_of_withTarget hmoved
  intro hfails
  cases hfails with
  | expression hmem hvalue =>
    obtain ⟨v, hv⟩ : ∃ v, (context r).evaluate _ = .ok v := by
      simp only [fields, List.mem_cons, List.mem_append, Prod.mk.injEq] at hmem
      rcases hmem with ⟨-, hgiven⟩ | (hmem | hmem) | hmem
      · exact (path_of_editPath hpath hgiven.symm).imp fun _ ⟨_, h, _⟩ => h
      · exact Rule.evaluate_of_mem hedit hmem
      · exact Rule.evaluate_of_mem hquery hmem
      · exact Rule.evaluate_of_mem hform hmem
    cases hv.symm.trans hvalue
  | path hgiven hvalue hmark =>
    obtain ⟨v, path, hv, hread⟩ := path_of_editPath hpath hgiven
    cases hv.symm.trans hvalue
    cases (Json.requestPath_eq_error.2 ⟨hmark, rfl⟩).symm.trans hread
  | headers hedit' hfails =>
    cases hedit.symm.trans hedit'
    cases hheaders.symm.trans hfails
  | query hpath' hedit' hfails =>
    cases hpath.symm.trans hpath'
    cases hquery.symm.trans hedit'
    cases hurl.symm.trans hfails
  | target hpath' hedit' hquery' hne hfails =>
    cases hpath.symm.trans hpath'
    cases hquery.symm.trans hedit'
    cases hurl.symm.trans hquery'
    cases (hread hne).symm.trans hfails
  | form hedit' hheaders' hcarries hform' hfails =>
    cases hedit.symm.trans hedit'
    cases hheaders.symm.trans hheaders'
    cases hform.symm.trans hform'
    by_cases hskipped : (form.isEmpty || !carriesForm r.method headers) = true
    · -- an edit of nothing does not fail
      rw [hcarries, Bool.not_true, Bool.or_false] at hskipped
      cases form.eq_of_isEmpty hskipped
      cases hfails
    · rw [if_neg hskipped] at h
      obtain ⟨encoded, hencoded, -⟩ := exists_of_bind h
      rw [orReject, blame, mapError_eq_ok, mapError_eq_ok] at hencoded
      cases hencoded.symm.trans hfails

/-- When modifiers fail, the error of one of them is reported. -/
theorem exists_error (h : ∃ error, m.Fails r error) :
    ∃ error, m.apply r = .error error ∧ m.Fails r error := by
  obtain ⟨error, herror⟩ := h
  cases happly : m.apply r with
  | ok edited => exact absurd herror (not_fails_of_apply happly)
  | error reported => exact ⟨reported, rfl, failsOnly_apply reported happly⟩

end RequestModifiers

end Gateway
