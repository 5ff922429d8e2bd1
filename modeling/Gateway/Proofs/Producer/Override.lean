import Gateway.Proofs.Evaluation.Failing
import Gateway.Proofs.Http.Parts
import Gateway.Proofs.Run.Once

/-!
# Gateway.Proofs.Producer.Override — a path in place of another

A proxy that is given a path sends its request to that path, with the query of its url. It does not
send it to the origin of its url: what is kept of a url when its path is replaced is the query alone.

The statement takes the url apart with `Http.Parts`, origin and all, and says how the url that is sent
is composed: with no origin, the path that was given and the old query. That the origin is lost is then
not a remark about some urls but an iff. It is kept just if there was none.

What is asked of the producer is that no rule edits the query as well. Such a rule comes after the path
has been replaced and works on the url that is left; what it does is said elsewhere, and would only have
to be repeated.
-/

set_option autoImplicit false

namespace Gateway

/-- A path that a value spells begins with a slash, and no query or fragment stands behind it. -/
theorem Json.of_requestPath {value : Json} {path : String} (h : value.requestPath = .ok (some path)) :
    beginsWith "/" path = true ∧ '?' ∉ path.toList ∧ '#' ∉ path.toList := by
  unfold requestPath at h
  dsimp only at h
  split at h
  · cases h
  split at h
  · cases h
  · next hmarks =>
    rw [Bool.or_eq_true, List.contains_iff_mem, List.contains_iff_mem, not_or] at hmarks
    split at h
    · next hslash =>
      cases h
      exact ⟨hslash, hmarks.2, hmarks.1⟩
    · cases h
      refine ⟨beginsWith_iff.2 ?_, ?_, ?_⟩
      · rw [String.toList_append]
        exact List.prefix_append ..
      · simpa using hmarks.2
      · simpa using hmarks.1

theorem replacePath_eq {url base : String} {query : Option String} (h : Parts url base query none)
    (path : String) : replacePath url path = path ++ marked "?" query := by
  have hurl : url = base ++ marked "?" query := h.url_eq.trans (String.append_empty ..)
  rw [replacePath, hurl, h.cut_query]
  cases query with
  | none => exact (String.append_empty ..).symm
  | some q => exact String.append_assoc ..

/-- A rule without expressions is evaluated to an edit of nothing. -/
theorem Rule.isEmpty_of_evaluate {rule : Rule} {c : Context} {subject : String} {edit : Edit}
    (h : rule.evaluate c subject = .ok edit) (hempty : rule.isEmpty = true) : edit.isEmpty = true := by
  obtain ⟨set, add, remove⟩ := rule
  simp only [isEmpty, Bool.and_eq_true, Option.isNone_iff_eq_none] at hempty
  obtain ⟨⟨rfl, rfl⟩, rfl⟩ := hempty
  cases h
  rfl

namespace Attributes

variable {a : Attributes} {c : Context}

theorem of_evalPath {path : String} (h : a.evalPath c = .ok (some path)) :
    beginsWith "/" path = true ∧ '?' ∉ path.toList ∧ '#' ∉ path.toList := by
  obtain ⟨value, -, h⟩ := exists_of_bind h
  cases value with
  | none => cases h
  | some value =>
    have hvalue : orFail (blame "path" value.requestPath) = .ok (some path) := h
    rw [orFail, mapError_eq_ok, blame, mapError_eq_ok] at hvalue
    exact Json.of_requestPath hvalue

/-- The url of a request is edited by the rule for its query, and by no other. -/
theorem url_of_editRequest {r sent : BackendRequest} (h : a.editRequest c r = .ok sent) :
    ∃ edit, a.queryParams.evaluate c "query_params" = .ok edit ∧ edit.onUrl r.url = .ok sent.url := by
  obtain ⟨_, -, h⟩ := exists_of_bind h
  obtain ⟨_, -, h⟩ := exists_of_bind h
  obtain ⟨_, -, h⟩ := exists_of_bind h
  obtain ⟨_, -, h⟩ := exists_of_bind h
  obtain ⟨edit, hedit, h⟩ := exists_of_bind h
  obtain ⟨url, hurl, h⟩ := exists_of_bind h
  obtain ⟨form, -, h⟩ := exists_of_bind h
  rw [orFail, mapError_eq_ok] at hedit
  rw [orFail, mapError_eq_ok, blame, mapError_eq_ok] at hurl
  have hsent : sent.url = url := by
    dsimp only at h
    split at h
    · cases h
      rfl
    · obtain ⟨_, -, h⟩ := exists_of_bind h
      cases h
      rfl
  rw [hsent]
  exact ⟨edit, hedit, hurl⟩

end Attributes

namespace Producer

variable {p : Producer} {client : ClientRequest} {c : Context}

theorem url_of_forwarded {a : Attributes} {request : BackendRequest} {target : Option String}
    {path : String} (htarget : a.evalUrl c = .ok target) (hpath : a.evalPath c = .ok (some path))
    (h : forwarded a client c = .ok request) :
    request.url = replacePath (target.getD client.pathAndQuery) path := by
  obtain ⟨_, -, h⟩ := exists_of_bind h
  obtain ⟨_, htarget', h⟩ := exists_of_bind h
  obtain ⟨_, hpath', h⟩ := exists_of_bind h
  obtain ⟨body, -, h⟩ := exists_of_bind h
  cases htarget.symm.trans htarget'
  cases hpath.symm.trans hpath'
  cases h
  cases body <;> rfl

/-- Without a rule for the query, a proxy that is given a path sends that path and the query of its url,
without an origin. So it keeps the origin of its url only if that has none. -/
theorem outbound_of_path {target : Option String} {path origin old : String} {query : Option String}
    {sent : BackendRequest} (hkind : p.kind = .proxy) (hquery : p.attributes.queryParams.isEmpty = true)
    (htarget : p.attributes.evalUrl c = .ok target) (hpath : p.attributes.evalPath c = .ok (some path))
    (hurl : Composed (target.getD client.pathAndQuery) origin old query none)
    (hsent : p.outbound client c = .ok sent) :
    Composed sent.url "" path query none ∧
      (Composed sent.url origin path query none ↔ origin = "") := by
  obtain ⟨hslash, hmark, hhash⟩ := Attributes.of_evalPath hpath
  rw [outbound, hkind] at hsent
  obtain ⟨request, hrequest, hsent⟩ := exists_of_bind hsent
  obtain ⟨edit, hedit, hedited⟩ := Attributes.url_of_editRequest hsent
  rw [Edit.onUrl_of_isEmpty (Rule.isEmpty_of_evaluate hedit hquery),
    url_of_forwarded htarget hpath hrequest, replacePath_eq hurl.base] at hedited
  have hsenturl : sent.url = path ++ marked "?" query := (Except.ok.inj hedited).symm
  -- what is sent begins with a slash, so no scheme and no authority can be read of it
  have hrelative : ¬ IsAbsolute sent.url := by
    apply not_isAbsolute_of_slash
    rw [hsenturl, beginsWith_iff, String.toList_append]
    exact (beginsWith_iff.1 hslash).trans (List.prefix_append ..)
  have hcomposed : Composed sent.url "" path query none := by
    obtain ⟨rest, -, hparts⟩ := hurl.behind
    refine ⟨⟨sent.url, (String.empty_append ..).symm, ?_, hmark, hhash, hparts.query_hash_notMem⟩,
      .inl ⟨rfl, hrelative⟩⟩
    rw [hsenturl]
    exact (String.append_empty ..).symm
  refine ⟨hcomposed, fun hkept => ?_, fun horigin => horigin ▸ hcomposed⟩
  rcases hkept.front with ⟨horigin, -⟩ | ⟨horigin, -⟩
  · exact horigin
  · obtain ⟨rest, hrest, -⟩ := hkept.behind
    exact absurd ⟨origin, rest, horigin, hrest⟩ hrelative

/-- The path and query of a client with another path. -/
theorem outbound_of_path_of_client :
    let p : Producer :=
      { plain 0 "p" with kind := .proxy, attributes := { path := some (.literal (.string "e")) } }
    let client : ClientRequest :=
      { ClientRequest.plain with uri := ⟨none, none, ⟨"/a/b?to=http://c/d"⟩⟩ }
    let sent : BackendRequest := { method := "GET", url := "/e?to=http://c/d" }
    Composed client.pathAndQuery "" "/a/b" (some "to=http://c/d") none ∧
      p.attributes.evalPath {} = .ok (some "/e") ∧ p.outbound client {} = .ok sent ∧
      Composed sent.url "" "/e" (some "to=http://c/d") none := by
  intro p client sent
  have htarget : p.attributes.evalUrl {} = .ok none := rfl
  have hpath : p.attributes.evalPath {} = .ok (some "/e") := by decide
  have hsent : p.outbound client {} = .ok sent := by decide +kernel
  have hurl : Composed client.pathAndQuery "" "/a/b" (some "to=http://c/d") none :=
    ⟨⟨client.pathAndQuery, rfl, by decide +kernel⟩,
      .inl ⟨rfl, not_isAbsolute_of_slash (by decide)⟩⟩
  exact ⟨hurl, hpath, hsent, (outbound_of_path rfl rfl htarget hpath hurl hsent).1⟩

/-- The url of another host, with another path, is a url of the backend. -/
theorem outbound_of_absolute :
    let p : Producer :=
      { plain 0 "p" with
        kind := .proxy
        attributes :=
          { url := some (.literal (.string "http://other/x?q=1"))
            path := some (.literal (.string "/y")) } }
    Composed "http://other/x?q=1" "http://other" "/x" (some "q=1") none ∧
      p.outbound .plain {} = .ok { method := "GET", url := "/y?q=1" } ∧
      ¬ Composed "/y?q=1" "http://other" "/y" (some "q=1") none := by
  intro p
  refine ⟨⟨⟨"/x?q=1", rfl, by decide +kernel⟩, .inr ⟨?_, .inr (by decide)⟩⟩, rfl, ?_⟩
  · exact ⟨"http", "other", rfl, by simp, by simp⟩
  · rintro ⟨⟨rest, hurl, -⟩, -⟩
    have hfirst := congrArg (·.toList.head?) hurl
    simp at hfirst

end Producer

end Gateway
