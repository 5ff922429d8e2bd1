import Gateway.Proofs.Endpoint.Inbound
import Gateway.Proofs.Evaluation.Lookup
import Gateway.Proofs.Evaluation.Rewriting
import Gateway.Proofs.Http.Target
import Gateway.Proofs.Producer.Override
import Gateway.Proofs.Run.Isolation

/-!
# Gateway.Proofs.Endpoint.Revision — what modifiers make of a request

The modifiers of an endpoint work on one request, one after another: the path and the query as one text,
the header fields, and at last the body, for which the fields as they are then count. What they make of
the request is said here for each part of it, by the values that the expressions have for the request as
it came.

There are two descriptions, and the theorem leads from one to the other. `Stages` is the pipeline taken
apart: what each stage was given and what it came to. It is an iff with the code (`apply_eq_ok`), so
nothing is lost in it, but to know what becomes of the query one has to follow a text through three
stages. `Values.Revise` says of each part of the request alone what it is in the end, and does not
mention stages. That a part is not changed is said of every part by an equation, since a modifier that
also changed the method would satisfy any list of what it does do.

The target of a request needs most care. Path and query are edited as one text, which is taken apart
again, so a path that is asked for must not look like a query (`AsksPath`). And a target that is an
authority alone has neither: it stays as it is, and the theorem says so in place of claiming a path
that is not there.
-/

set_option autoImplicit false

namespace Gateway

/-! ## Values -/

/-- The expressions of a rule have these values. -/
structure Rule.Yields (rule : Rule) (c : Context) (edit : Edit) : Prop where
  remove : c.evaluate? rule.remove = .ok edit.remove
  set : c.evaluate? rule.set = .ok edit.set
  add : c.evaluate? rule.add = .ok edit.add

theorem bind_of_eq_ok {ε α β : Type} {x : Except ε α} {k : α → Except ε β} {a : α} {b : β}
    (hx : x = .ok a) (hk : k a = .ok b) : x >>= k = .ok b := by
  rw [hx]
  exact hk

theorem Rule.yields_iff {rule : Rule} {c : Context} {subject : String} {edit : Edit} :
    rule.Yields c edit ↔ rule.evaluate c subject = .ok edit := by
  constructor
  · rintro ⟨hremove, hset, hadd⟩
    -- the subject is for the error only, and there is none
    have hvalue : ∀ {subject : String} {e : Option Expression} {value : Option Json},
        c.evaluate? e = .ok value → c.attribute? subject e = .ok value := by
      intro subject e value h
      rw [Context.attribute?, blame, mapError_eq_ok]
      exact h
    exact bind_of_eq_ok (hvalue hremove) (bind_of_eq_ok (hvalue hset) (bind_of_eq_ok (hvalue hadd) rfl))
  · intro h
    obtain ⟨remove, hremove, h⟩ := exists_of_bind h
    obtain ⟨set, hset, h⟩ := exists_of_bind h
    obtain ⟨add, hadd, h⟩ := exists_of_bind h
    cases h
    rw [Context.attribute?, blame, mapError_eq_ok] at hremove hset hadd
    exact ⟨hremove, hset, hadd⟩

/-- The path that a value asks for: none if the value is missing or its text is empty, and otherwise the
text, with a slash in front of it if it has none. -/
inductive AsksPath : Option Json → Option String → Prop
  | unset : AsksPath none none
  | empty {value : Json} (hempty : value.text = "") : AsksPath (some value) none
  | absolute {value : Json} (hslash : beginsWith "/" value.text = true) :
      AsksPath (some value) (some value.text)
  | relative {value : Json} (hne : value.text ≠ "") (hslash : beginsWith "/" value.text = false) :
      AsksPath (some value) (some ("/" ++ value.text))

theorem AsksPath.ne_empty {value : Option Json} {path : String} (h : AsksPath value (some path)) :
    path ≠ "" := by
  cases h with
  | absolute hslash =>
    intro hempty
    rw [hempty] at hslash
    exact absurd hslash (by decide)
  | relative => simp

theorem Json.asksPath_of_requestPath {value : Json} {asked : Option String}
    (h : value.requestPath = .ok asked) : AsksPath (some value) asked := by
  unfold requestPath at h
  dsimp only at h
  split at h
  · next hempty =>
    cases h
    exact .empty (String.isEmpty_iff.1 hempty)
  next hne =>
  split at h
  · cases h
  split at h
  · next hslash =>
    cases h
    exact .absolute hslash
  · next hslash =>
    cases h
    exact .relative (mt String.isEmpty_iff.2 hne) (Bool.not_eq_true _ ▸ hslash)

/-! ## Forms -/

/-- The first media type that the fields tell is that of a form, in whatever case it is written. What is
no plain text tells none. -/
def Headers.TellForm (h : Headers) : Prop :=
  ∃ value text start rest, h.get? contentType = some value ∧ headerText? value = some text ∧
    text = start ++ rest ∧ lowerAscii start = formType

/-- A text begins with another, but for the case of its letters. -/
theorem beginsWith_lowerAscii_iff {front s : String} :
    beginsWith front (lowerAscii s) = true ↔ ∃ start rest, s = start ++ rest ∧ lowerAscii start = front := by
  rw [beginsWith_iff, lowerAscii, String.toList_ofList]
  constructor
  · rintro ⟨rest, hrest⟩
    obtain ⟨start, behind, hs, hstart, -⟩ := List.map_eq_append_iff.1 hrest.symm
    refine ⟨String.ofList start, String.ofList behind, ?_, ?_⟩
    · rw [← String.ofList_append, ← hs, String.ofList_toList]
    · rw [lowerAscii, String.toList_ofList, hstart, String.ofList_toList]
  · rintro ⟨start, rest, rfl, rfl⟩
    rw [String.toList_append, List.map_append, lowerAscii, String.toList_ofList]
    exact List.prefix_append ..

theorem carriesForm_iff {method : Method} {h : Headers} :
    carriesForm method h = true ↔ method = "POST" ∧ h.TellForm := by
  have hnone : ¬ beginsWith formType (lowerAscii "") = true := by decide
  rw [carriesForm, Bool.and_eq_true, beq_iff_eq]
  refine and_congr_right fun _ => ?_
  unfold Headers.TellForm
  cases hvalue : h.get? contentType with
  | none => simp [hnone]
  | some value =>
    cases htext : headerText? value with
    | none => simp [htext, hnone]
    | some text => simp [htext, beginsWith_lowerAscii_iff]

namespace Edit

/-- Editing a url edits its query, or leaves it if there is nothing to do. -/
theorem exists_query_of_onUrl {e : Edit} {url edited base : String} {query : Option String}
    (hurl : Parts url base query none) (h : e.onUrl url = .ok edited) :
    ∃ query', Parts edited base query' none ∧ (e.isEmpty = true → query' = query) ∧
      (e.isEmpty = false → ∃ ps, e.onParams (params query) = .ok ps ∧ query' = queryOf ps) := by
  cases hempty : e.isEmpty with
  | true =>
    cases (onUrl_of_isEmpty hempty url).symm.trans h
    exact ⟨query, hurl, fun _ => rfl, nofun⟩
  | false =>
    obtain ⟨ps, hps, hparts⟩ := parts_of_onUrl hempty hurl h
    exact ⟨queryOf ps, hparts, nofun, fun _ => ⟨ps, hps, rfl⟩⟩

end Edit

namespace RequestModifiers

/-! ## Requests -/

/-- The values of modifiers. -/
structure Values where
  path : Option Json := none
  headers : Edit := {}
  query : Edit := {}
  form : Edit := {}

variable {m : RequestModifiers} {r edited : ClientRequest} {c : Context}

/-- The expressions of modifiers have these values. -/
structure Yields (m : RequestModifiers) (c : Context) (v : Values) : Prop where
  path : c.evaluate? m.path = .ok v.path
  headers : m.headers.Yields c v.headers
  query : m.query.Yields c v.query
  form : m.form.Yields c v.form

/-- What values make of a request. Its path is the one they ask for, its query and header fields are
edited, and so is its body, if it is posted as a form. A target that is an authority alone stays one. -/
structure Values.Revise (v : Values) (r edited : ClientRequest) : Prop where
  id : edited.id = r.id
  method : edited.method = r.method
  scheme : edited.uri.scheme = r.uri.scheme
  authority : edited.uri.authority = r.uri.authority
  path : ¬ r.uri.IsAuthority → ∃ asked, AsksPath v.path asked ∧ edited.path = asked.getD r.path
  target : r.uri.IsAuthority → edited.uri = r.uri
  rawQuery : v.query.isEmpty = true → edited.query = r.query
  query : v.query.isEmpty = false →
    ∃ ps, v.query.onParams (Edit.params r.query) = .ok ps ∧ edited.query = Edit.queryOf ps
  headers : v.headers.headers r.headers = .ok edited.headers
  form : v.form.isEmpty = false → r.method = "POST" → edited.headers.TellForm →
    ∃ text, v.form.onForm r.body = .ok text ∧ edited.body = Utf8.encode text
  rawBody : v.form.isEmpty = true ∨ r.method ≠ "POST" ∨ ¬ edited.headers.TellForm →
    edited.body = r.body

theorem of_editPath {url edited : String} (h : m.editPath c url = .ok edited) :
    ∃ value asked, c.evaluate? m.path = .ok value ∧ AsksPath value asked ∧
      ∀ {base : String} {query : Option String}, Parts url base query none →
        Parts edited (asked.getD base) query none := by
  obtain ⟨value, hvalue, h⟩ := exists_of_bind h
  rw [orReject, mapError_eq_ok, Context.attribute?, blame, mapError_eq_ok] at hvalue
  cases value with
  | none =>
    cases h
    exact ⟨none, none, hvalue, .unset, id⟩
  | some value =>
    cases hpath : value.requestPath with
    | error error =>
      simp only [hpath] at h
      cases h
    | ok asked =>
      refine ⟨some value, asked, hvalue, Json.asksPath_of_requestPath hpath, fun hurl => ?_⟩
      simp only [hpath] at h
      cases asked with
      | none =>
        cases h
        exact hurl
      | some path =>
        cases h
        obtain ⟨-, hmark, hhash⟩ := Json.of_requestPath hpath
        refine ⟨?_, hmark, hhash, hurl.query_hash_notMem⟩
        rw [replacePath_eq hurl]
        exact (String.append_empty ..).symm

/-- The stages of a request that is edited: each works on what the one before it came to, and takes its
values from the request as it was. -/
inductive Stages (m : RequestModifiers) (r edited : ClientRequest) : Prop
  | intro {url url' : String} {headers query form : Edit} {sent : Headers} {moved : ClientRequest}
      (hpath : m.editPath (context r) r.pathAndQuery = .ok url)
      (hheaders : m.headers.Yields (context r) headers) (hsent : headers.headers r.headers = .ok sent)
      (hquery : m.query.Yields (context r) query) (hurl : query.onUrl url = .ok url')
      (hmoved : ({ r with headers := sent } : ClientRequest).withTarget url' = .ok moved)
      (hform : m.form.Yields (context r) form)
      (hskipped : form.isEmpty = true ∨ carriesForm moved.method moved.headers = false → edited = moved)
      (hedited : form.isEmpty = false → carriesForm moved.method moved.headers = true →
        ∃ text, form.onForm moved.body = .ok text ∧ edited = { moved with body := Utf8.encode text }) :
      Stages m r edited

theorem apply_eq_ok (hgiven : m.isEmpty = false) : m.apply r = .ok edited ↔ m.Stages r edited := by
  rw [apply, if_neg (by rw [hgiven]; exact Bool.false_ne_true)]
  constructor
  -- the stages in the order of the program; what one of them came to is read by those that follow
  · intro h
    obtain ⟨url, hpath, h⟩ := exists_of_bind h
    obtain ⟨headers, hheaders, h⟩ := exists_of_bind h
    obtain ⟨sent, hsent, h⟩ := exists_of_bind h
    obtain ⟨query, hquery, h⟩ := exists_of_bind h
    obtain ⟨url', hurl, h⟩ := exists_of_bind h
    obtain ⟨moved, hmoved, h⟩ := exists_of_bind h
    obtain ⟨form, hform, h⟩ := exists_of_bind h
    rw [orReject, mapError_eq_ok] at hheaders hsent hquery hurl hform
    rw [blame, mapError_eq_ok] at hsent hurl
    refine .intro hpath (Rule.yields_iff.2 hheaders) hsent (Rule.yields_iff.2 hquery) hurl hmoved
      (Rule.yields_iff.2 hform) (fun hskipped => ?_) fun hgiven hcarries => ?_
    · rw [if_pos (by simpa using hskipped)] at h
      cases h
      rfl
    · rw [if_neg (by simp [hgiven, hcarries])] at h
      obtain ⟨text, htext, h⟩ := exists_of_bind h
      rw [orReject, blame, mapError_eq_ok, mapError_eq_ok] at htext
      cases h
      exact ⟨text, htext, rfl⟩
  · rintro @⟨url, url', headers, query, form, sent, moved, hpath, hheaders, hsent, hquery, hurl, hmoved,
      hform, hskipped, hedited⟩
    have hrule : ∀ {rule : Rule} {subject : String} {edit : Edit}, rule.Yields (context r) edit →
        orReject (rule.evaluate (context r) subject) = .ok edit :=
      fun h => mapError_eq_ok.2 (Rule.yields_iff.1 h)
    have hblame : ∀ {α : Type} {subject : String} {x : Except EvalError α} {a : α}, x = .ok a →
        orReject (blame subject x) = .ok a :=
      fun h => mapError_eq_ok.2 (mapError_eq_ok.2 h)
    refine bind_of_eq_ok hpath (bind_of_eq_ok (hrule hheaders) (bind_of_eq_ok (hblame hsent) ?_))
    refine bind_of_eq_ok (hrule hquery) (bind_of_eq_ok (hblame hurl) (bind_of_eq_ok hmoved ?_))
    refine bind_of_eq_ok (hrule hform) ?_
    by_cases hskip : form.isEmpty = true ∨ carriesForm moved.method moved.headers = false
    · rw [if_pos (by simpa using hskip), hskipped hskip]
      rfl
    · simp only [not_or, Bool.not_eq_true, Bool.not_eq_false] at hskip
      obtain ⟨text, htext, rfl⟩ := hedited hskip.1 hskip.2
      rw [if_neg (by simp [hskip.1, hskip.2])]
      exact bind_of_eq_ok (hblame htext) rfl

/-- Modifiers that are not given leave a request. -/
theorem revises_empty (r : ClientRequest) :
    ({} : RequestModifiers).Yields (context r) {} ∧ ({} : Values).Revise r r := by
  have hedit : ({} : Rule).Yields (context r) {} := ⟨rfl, rfl, rfl⟩
  refine ⟨⟨rfl, hedit, hedit, hedit⟩, ?_⟩
  exact {
    id := rfl
    method := rfl
    scheme := rfl
    authority := rfl
    path := fun _ => ⟨none, .unset, rfl⟩
    target := fun _ => rfl
    rawQuery := fun _ => rfl
    query := nofun
    headers := rfl
    form := nofun
    rawBody := fun _ => rfl }

/-- The body is edited last, if it is posted as a form. -/
theorem exists_body {moved : ClientRequest} {form : Edit}
    (hskipped : form.isEmpty = true ∨ carriesForm moved.method moved.headers = false → edited = moved)
    (hedited : form.isEmpty = false → carriesForm moved.method moved.headers = true →
      ∃ text, form.onForm moved.body = .ok text ∧ edited = { moved with body := Utf8.encode text }) :
    ∃ body, edited = { moved with body } ∧
      (form.isEmpty = false → moved.method = "POST" → moved.headers.TellForm →
        ∃ text, form.onForm moved.body = .ok text ∧ body = Utf8.encode text) ∧
      (form.isEmpty = true ∨ moved.method ≠ "POST" ∨ ¬ moved.headers.TellForm → body = moved.body) := by
  -- the stage tests whether to skip the edit, where the statement asks for the method and the field
  by_cases hskip : form.isEmpty = true ∨ carriesForm moved.method moved.headers = false
  · refine ⟨moved.body, hskipped hskip, fun hgiven hmethod htell => ?_, fun _ => rfl⟩
    rcases hskip with hempty | hnot
    · cases hgiven.symm.trans hempty
    · cases hnot.symm.trans (carriesForm_iff.2 ⟨hmethod, htell⟩)
  · obtain ⟨hgiven, hcarries⟩ := not_or.1 hskip
    rw [Bool.not_eq_true] at hgiven
    rw [Bool.not_eq_false] at hcarries
    obtain ⟨text, htext, heq⟩ := hedited hgiven hcarries
    obtain ⟨hmethod, htell⟩ := carriesForm_iff.1 hcarries
    refine ⟨_, heq, fun _ _ _ => ⟨text, htext, rfl⟩, ?_⟩
    rintro (hempty | hnot | hnot)
    · cases hgiven.symm.trans hempty
    · exact absurd hmethod hnot
    · exact absurd htell hnot

theorem revises_of_stages (huri : r.uri.Form) (h : m.Stages r edited) :
    ∃ v, m.Yields (context r) v ∧ v.Revise r edited := by
  obtain @⟨url, url', headers, query, form, sent, moved, hpath, hheaders, hsent, hquery, hurl, hmoved,
    hform, hskipped, hedited⟩ := h
  obtain ⟨value, asked, hvalue, hasks, hasked⟩ := of_editPath hpath
  obtain ⟨base, hparts, hbase⟩ := huri.exists_base
  obtain ⟨query', hparts', hraw, hqueried⟩ := Edit.exists_query_of_onUrl (hasked hparts) hurl
  obtain ⟨body, rfl, hposted, hkept⟩ := exists_body hskipped hedited
  obtain ⟨⟨target, rfl⟩, hquery', hpath', htarget⟩ :=
    ClientRequest.of_withTarget (r := { r with headers := sent }) huri hparts' hmoved
  refine ⟨⟨value, headers, query, form⟩, ⟨hvalue, hheaders, hquery, hform⟩, ?_⟩
  exact {
    id := rfl
    method := rfl
    scheme := rfl
    authority := rfl
    path := by
      intro hnot
      refine ⟨asked, hasks, (hpath' hnot).trans ?_⟩
      cases asked with
      | none => exact (hbase hnot).symm
      | some path => exact if_neg hasks.ne_empty
    target := htarget
    rawQuery := fun hempty => hquery'.trans (hraw hempty)
    query := by
      intro hgiven
      obtain ⟨ps, hps, rfl⟩ := hqueried hgiven
      exact ⟨ps, hps, hquery'⟩
    headers := hsent
    form := hposted
    rawBody := hkept }

/-- What modifiers make of a request is said by the values that they have for the request as it came. -/
theorem apply_revises {s : String} (hread : Uri.read s = .ok r.uri) (h : m.apply r = .ok edited) :
    ∃ v, m.Yields (context r) v ∧ v.Revise r edited := by
  cases hempty : m.isEmpty with
  | true =>
    cases eq_of_isEmpty hempty
    cases h
    exact ⟨{}, revises_empty _⟩
  | false => exact revises_of_stages (Uri.form_of_read hread) ((apply_eq_ok hempty).1 h)

theorem lookup_path (r : ClientRequest) :
    (context r).lookup ⟨"request", ["path"]⟩ = .ok (.string r.path) := by
  have hchild : Context.child? "path" r.value = some (.string r.path) := Context.child?_request r "path"
  have hfollow : Context.follow r.value ["path"] = .string r.path := by
    rw [Context.follow, hchild]
    rfl
  rw [context, Context.lookup_build]
  exact congrArg Except.ok hfollow

/-- The fields that decide whether the body is a form are those that were set before, and the path that
was replaced is still what the expressions see. -/
theorem apply_revises_of_all :
    let m : RequestModifiers := {
      path := some (.literal (.string "b"))
      headers := { set := some (.object [("content-type", .literal (.string formType))]) }
      query := { add := some (.object [("from", .reference ⟨"request", ["path"]⟩)]) }
      form := { set := some (.object [("a", .literal (.ofNat 2))]) } }
    let r : ClientRequest := ⟨"1", "POST", ⟨some "http", some "h", ⟨"/a?x=1"⟩⟩, .empty, Utf8.encode "a=1&b="⟩
    let edited : ClientRequest := ⟨"1", "POST", ⟨some "http", some "h", ⟨"/b?x=1&from=%2Fa"⟩⟩,
      ⟨[(contentType, Utf8.encode formType)]⟩, Utf8.encode "a=2&b="⟩
    Uri.read "http://h/a?x=1#top" = .ok r.uri ∧ m.apply r = .ok edited ∧
      ∃ v, m.Yields (context r) v ∧ v.Revise r edited := by
  intro m r edited
  have hread : Uri.read "http://h/a?x=1#top" = .ok ⟨some "http", some "h", ⟨"/a?x=1"⟩⟩ := rfl
  have hpath : ∀ c, m.editPath c "/a?x=1" = .ok "/b?x=1" := fun c => by cbv
  have hsent : ({ set := some (.object [("content-type", .string formType)]) } : Edit).headers .empty =
      .ok edited.headers := by cbv
  have hadd : (context r).evaluate? m.query.add = .ok (some (.object [("from", .string "/a")])) := by
    have hlookup : (context r).lookup ⟨"request", ["path"]⟩ = .ok (.string "/a") := by
      have hold : Uri.path ⟨some "http", some "h", ⟨"/a?x=1"⟩⟩ = "/a" := rfl
      rw [lookup_path]
      exact congrArg (fun path => Except.ok (Json.string path)) hold
    simp only [m, Context.evaluate?, Context.evaluate, Context.evaluateFields, hlookup]
    rfl
  have hurl : ({ add := some (.object [("from", .string "/a")]) } : Edit).onUrl "/b?x=1" =
      .ok "/b?x=1&from=%2Fa" := by cbv
  have hmoved : ({ r with headers := edited.headers } : ClientRequest).withTarget "/b?x=1&from=%2Fa" =
      .ok { edited with body := r.body } := by
    have htarget : PathAndQuery.read "/b?x=1&from=%2Fa" = .ok ⟨"/b?x=1&from=%2Fa"⟩ := rfl
    rw [ClientRequest.withTarget, if_neg (by decide), htarget]
    rfl
  have hyields : m.form.Yields (context r) { set := some (.object [("a", .ofNat 2)]) } :=
    ⟨rfl, rfl, rfl⟩
  have hcarries : carriesForm "POST" edited.headers = true := by cbv
  have hform : ({ set := some (.object [("a", .ofNat 2)]) } : Edit).onForm r.body = .ok "a=2&b=" := by
    cbv
  have happly : m.apply r = .ok edited := by
    refine (apply_eq_ok rfl).2 (.intro (hpath _) ⟨rfl, rfl, rfl⟩ hsent ⟨rfl, rfl, hadd⟩ hurl hmoved
      hyields ?_ ?_)
    · rintro (hempty | hnot)
      · cases hempty
      · cases hcarries.symm.trans hnot
    · exact fun _ _ => ⟨_, hform, rfl⟩
  exact ⟨hread, happly, apply_revises hread happly⟩

/-- A request for an authority alone has no path, not even the one that is asked for; and a form whose
media type is followed by bytes that are no plain text stays as it is. -/
theorem apply_of_bare :
    let m : RequestModifiers := {
      path := some (.literal (.string "/"))
      form := { add := some (.object [("b", .literal (.string "2"))]) } }
    let bare : ClientRequest := ⟨"1", "GET", ⟨none, some "host:80", ⟨""⟩⟩, .empty, []⟩
    let mediaType : Bytes := Utf8.encode "application/x-www-form-urlencoded; v=é"
    let posted : ClientRequest :=
      ⟨"2", "POST", ⟨none, none, ⟨"/"⟩⟩, ⟨[(contentType, mediaType)]⟩, Utf8.encode "a=1"⟩
    let form : Edit := { add := some (.object [("b", .string "2")]) }
    (Uri.read "host:80" = .ok bare.uri ∧ m.apply bare = .ok bare ∧
      (context bare).evaluate? m.path = .ok (some (.string "/")) ∧
      AsksPath (some (.string "/")) (some "/") ∧ bare.path ≠ "/") ∧
    Uri.read "/" = .ok posted.uri ∧ m.apply posted = .ok posted ∧
      Utf8.encode formType <+: mediaType ∧ m.form.Yields (context posted) form ∧
      form.onForm posted.body = .ok "a=1&b=2" ∧ posted.body ≠ Utf8.encode "a=1&b=2" := by
  intro m bare mediaType posted form
  have hread : Uri.read "host:80" = .ok ⟨none, some "host:80", ⟨""⟩⟩ := rfl
  have hread' : Uri.read "/" = .ok ⟨none, none, ⟨"/"⟩⟩ := rfl
  have hpath : ∀ c, m.editPath c "/" = .ok "/" := fun c => by cbv
  have hyields : ∀ c, m.form.Yields c form := fun c => ⟨rfl, rfl, rfl⟩
  -- a request is left by every stage if it is for the slash and carries no form
  have hleft : ∀ r : ClientRequest, r.pathAndQuery = "/" → carriesForm r.method r.headers = false →
      m.apply r = .ok r := by
    intro r hslash hcarries
    have hnone : ({} : Rule).Yields (context r) {} := ⟨rfl, rfl, rfl⟩
    have hsent : ({} : Edit).headers r.headers = .ok r.headers := rfl
    have hurl : ({} : Edit).onUrl "/" = .ok "/" := rfl
    have hmoved : ({ r with headers := r.headers } : ClientRequest).withTarget "/" = .ok r :=
      if_pos hslash.symm
    refine (apply_eq_ok rfl).2 (.intro (by rw [hslash]; exact hpath _) hnone hsent hnone hurl hmoved
      (hyields _) (fun _ => rfl) fun _ h => ?_)
    cases hcarries.symm.trans h
  have hcarries : carriesForm "POST" ⟨[(contentType, Utf8.encode "application/x-www-form-urlencoded; v=é")]⟩ =
      false := by cbv
  have hform : Edit.onForm { add := some (.object [("b", .string "2")]) } (Utf8.encode "a=1") =
      .ok "a=1&b=2" := by cbv
  exact ⟨⟨hread, hleft bare rfl rfl, rfl, .absolute rfl, by decide⟩, hread', hleft posted rfl hcarries,
    by decide, hyields _, hform, by decide⟩

end RequestModifiers

end Gateway
