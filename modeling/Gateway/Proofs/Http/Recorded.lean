import Gateway.Proofs.Evaluation.Lookup
import Gateway.Proofs.Http.Parts
import Gateway.Proofs.Run.Once

/-!
# Gateway.Proofs.Http.Recorded — the recorded path and query

Expressions see the path and the query of what was sent to a backend. They are read from the url behind
its origin, and what counts as an origin is whatever stands before `://`, anywhere in the url, with
what follows up to a slash or a question mark. So they are right for the urls that are `Plain`: a
relative url in which `://` does not occur, and an absolute one that has a path or a query, or else a
fragment in which no slash or question mark is taken for the beginning of one.

Whether they are right is measured against `Http.Parts`, where a url is put together from what it
really consists of. `Plain` was found by asking when the two agree, and it is meant to be exact:
for urls without a fragment, reading the right path and query shows that the url is plain
(`plain_of_splitUrl`). With a fragment it can happen that the wrong reading gives the right result, when
what is taken for the path happens to be the same text, so there the condition is only sufficient.

The statement is about what an expression sees, through the map and the variables, and not about the
function that cuts, because it is the recorded request that a configuration can ask for.
-/

set_option autoImplicit false

namespace Gateway

/-- The part of a url from which its path and its query are read. -/
def behindOrigin (url : String) : String :=
  match afterFirst "://".toList url.toList with
  | some after => String.ofList (after.dropWhile fun c => c ≠ '/' && c ≠ '?')
  | none => url

/-- What is taken for an origin is the origin: a relative url holds no `://`, and if no path or query ends
the authority of an absolute one, no slash or question mark of a fragment does. -/
def Plain (url origin path : String) (query fragment : Option String) : Prop :=
  if origin = "" then ¬ "://".toList <:+: url.toList
  else path = "" → query = none → ∀ f ∈ fragment, '/' ∉ f.toList ∧ '?' ∉ f.toList

variable {url origin path : String} {query fragment : Option String}

theorem splitUrl_eq (h : Parts (behindOrigin url) path query fragment) :
    splitUrl url = (if path = "" then "/" else path, query) := by
  let cut := cutAt '?' (cutAt '#' (behindOrigin url).toList).1
  have hcut : splitUrl url =
      (if cut.1.isEmpty then "/" else String.ofList cut.1, cut.2.map String.ofList) := by
    simp only [cut]
    unfold splitUrl behindOrigin
    cases afterFirst "://".toList url.toList with
    | none => rfl
    | some after => simp only [String.toList_ofList]
  -- the hash is looked for first, and the question mark in what stands before it
  have hfront := congrArg String.toList (Prod.mk.inj h.cut_fragment).1
  have hpath := (Prod.mk.inj h.cut_query).1
  have hquery := (Prod.mk.inj h.cut_query).2
  rw [String.toList_ofList] at hfront
  rw [← hfront] at hpath hquery
  have hempty : cut.1.isEmpty = true ↔ path = "" := by
    rw [← hpath, List.isEmpty_iff, String.ofList_eq_empty_iff]
  rw [hcut, hpath, hquery]
  simp only [hempty]

/-! ## Relative urls -/

theorem behindOrigin_of_notInfix (h : ¬ "://".toList <:+: url.toList) : behindOrigin url = url := by
  have hnone : afterFirst "://".toList url.toList = none := by
    rwa [← isSome_afterFirst_iff, Bool.not_eq_true, Option.isSome_eq_false_iff,
      Option.isNone_iff_eq_none] at h
  rw [behindOrigin, hnone]

/-- What stands up to the end of `://` is not read. -/
theorem length_behindOrigin (h : "://".toList <:+: url.toList) :
    (behindOrigin url).length + 3 ≤ url.length := by
  obtain ⟨after, hafter⟩ := Option.isSome_iff_exists.1 (isSome_afterFirst_iff.2 h)
  obtain ⟨front, hurl⟩ := afterFirst_eq_some hafter
  have hdrop := (List.dropWhile_suffix (l := after) fun c => c ≠ '/' && c ≠ '?').length_le
  have hthree : "://".toList.length = 3 := rfl
  rw [behindOrigin, hafter, ← String.length_toList, ← String.length_toList, ← hurl]
  simp only [String.toList_ofList, List.length_append]
  omega

/-! ## Absolute urls -/

theorem behindOrigin_of_isOrigin (horigin : IsOrigin origin) (rest : String) :
    behindOrigin (origin ++ rest) =
      String.ofList (rest.toList.dropWhile fun c => c ≠ '/' && c ≠ '?') := by
  obtain ⟨scheme, authority, rfl, hscheme, hauthority⟩ := horigin
  have hcolon : ':' ∉ scheme.toList := fun h => hscheme ':' h (by decide)
  -- the scheme has no colon, so the first `://` is the one behind it
  have hafter : afterFirst "://".toList (scheme ++ "://" ++ authority ++ rest).toList =
      some (authority.toList ++ rest.toList) := by
    simp only [String.toList_append, List.append_assoc]
    exact (congrArg _ (List.append_assoc ..).symm).trans (afterFirst_append hcolon _)
  have hdropped : ∀ c ∈ authority.toList, (c ≠ '/' && c ≠ '?') = true := by
    intro c hc
    have hnot := hauthority c hc
    simp only [List.mem_cons, not_or] at hnot
    simp [hnot.1, hnot.2.1]
  rw [behindOrigin, hafter]
  dsimp only
  rw [List.dropWhile_append_of_pos hdropped]

/-- The authority ends where the path begins, or else the query. -/
theorem dropWhile_of_begins {cs : List Char} (h : ∃ c ∈ cs.head?, c = '/' ∨ c = '?') :
    (cs.dropWhile fun c => c ≠ '/' && c ≠ '?') = cs := by
  obtain ⟨c, hhead, hc⟩ := h
  obtain ⟨rest, rfl⟩ := List.head?_eq_some_iff.1 hhead
  rw [List.dropWhile_cons, if_neg (by rcases hc with rfl | rfl <;> decide)]

/-- With neither of them, all that is left is a fragment. -/
theorem dropWhile_of_fragment (h : ∀ f ∈ fragment, '/' ∉ f.toList ∧ '?' ∉ f.toList) :
    ((marked "#" fragment).toList.dropWhile fun c => c ≠ '/' && c ≠ '?') = [] := by
  rw [List.dropWhile_eq_nil_iff]
  intro c hc
  rw [toList_marked] at hc
  cases fragment with
  | none => cases hc
  | some f =>
    obtain ⟨hslash, hmark⟩ := h f rfl
    rcases List.mem_append.1 hc with hc | hc
    · rw [List.mem_singleton.1 hc]
      decide
    · simp [ne_of_mem_of_not_mem hc hslash, ne_of_mem_of_not_mem hc hmark]

/-! ## What is read of a plain url -/

theorem exists_parts_behindOrigin (h : Composed url origin path query fragment)
    (hplain : Plain url origin path query fragment) :
    ∃ rest, Parts (behindOrigin url) path query rest := by
  obtain ⟨⟨rest, rfl, hparts⟩, ⟨rfl, -⟩ | ⟨horigin, hpath⟩⟩ := h
  · rw [Plain, if_pos rfl] at hplain
    rw [behindOrigin_of_notInfix hplain, String.empty_append]
    exact ⟨fragment, hparts⟩
  rw [Plain, if_neg horigin.ne_empty] at hplain
  have hrest : rest.toList =
      path.toList ++ ((marked "?" query).toList ++ (marked "#" fragment).toList) := by
    rw [hparts.url_eq, String.toList_append, String.toList_append, List.append_assoc]
  rw [behindOrigin_of_isOrigin horigin]
  -- the path or the query ends the authority; without both there may be a fragment behind it
  by_cases hbegins : ∃ c ∈ rest.toList.head?, c = '/' ∨ c = '?'
  · rw [dropWhile_of_begins hbegins, String.ofList_toList]
    exact ⟨fragment, hparts⟩
  obtain rfl : path = "" := by
    refine hpath.resolve_right fun hslash => hbegins ⟨'/', ?_, .inl rfl⟩
    obtain ⟨cs, hcs⟩ := beginsWith_iff.1 hslash
    rw [hrest, ← hcs]
    rfl
  cases query with
  | some q =>
    refine absurd ⟨'?', ?_, .inr rfl⟩ hbegins
    rw [hrest, toList_marked "?"]
    rfl
  | none =>
    have hfragment : rest.toList = (marked "#" fragment).toList := hrest
    rw [hfragment, dropWhile_of_fragment (hplain rfl rfl)]
    exact ⟨none, rfl, List.not_mem_nil, List.not_mem_nil, nofun⟩

theorem plain_of_splitUrl (h : Composed url origin path query none)
    (hsplit : splitUrl url = (if path = "" then "/" else path, query)) :
    Plain url origin path query none := by
  unfold Plain
  split
  · next horigin =>
    intro hinfix
    obtain ⟨⟨rest, hurl, hparts⟩, -⟩ := h
    rw [horigin, String.empty_append] at hurl
    obtain ⟨path', query', fragment', hread⟩ := exists_parts (behindOrigin url)
    rw [splitUrl_eq hread] at hsplit
    obtain ⟨hpath, hquery⟩ := Prod.mk.inj hsplit
    -- what is read is shorter than the url by three, but only a slash can have been put in
    have hshort := length_behindOrigin hinfix
    have hslash : ∀ s : String, s.length ≤ (if s = "" then "/" else s).length ∧
        (if s = "" then "/" else s).length ≤ s.length + 1 := by
      intro s
      split
      · next hs =>
        rw [hs]
        decide
      · omega
    have hlong : path.length ≤ path'.length + 1 :=
      (hslash path).1.trans (hpath ▸ (hslash path').2)
    rw [hread.url_eq, hurl, hparts.url_eq, hquery] at hshort
    simp only [String.length_append, marked, Option.map_none, Option.getD_none, String.length_empty]
      at hshort
    omega
  · exact fun _ _ => nofun

/-! ## What expressions see -/

theorem BackendRequest.follow_value (r : BackendRequest) :
    Context.follow r.value ["path"] = .string r.path ∧
      Context.follow r.value ["query"] = queryValue r.query := by
  have hnodup : ([("method", Json.string r.method), ("url", .string r.url), ("path", .string r.path),
      ("query", queryValue r.query), ("headers", headersValue r.headers),
      ("body", bytesValue r.body)].map Prod.fst).Nodup := by
    simp
  unfold BackendRequest.value Json.ofFields
  simp only [Context.follow, Context.child?, Json.Members.get?_ofList hnodup]
  exact ⟨rfl, rfl⟩

/-- What expressions see of a request that was published are the path and the query that are read from
its url. They are those of a plain url, and of a url without a fragment only if it is plain. -/
theorem BackendRequest.recorded_url {r : BackendRequest}
    (h : Composed r.url origin path query fragment) {results : ResultMap} (hunique : results.Unique)
    {name : String} {result : ProducerResult} (hresult : results.get? name = some result)
    (hrequest : result.request = some r) (client : ClientRequest) (current : Option ProducerResult) :
    let read := fun key =>
      (Context.build client results current).lookup ⟨Variable.backendRequests.name, [name, key]⟩
    (read "path" = .ok (.string r.path) ∧ read "query" = .ok (queryValue r.query)) ∧
      (Plain r.url origin path query fragment →
        r.path = (if path = "" then "/" else path) ∧ r.query = query) ∧
      (fragment = none → r.path = (if path = "" then "/" else path) → r.query = query →
        Plain r.url origin path query fragment) := by
  intro read
  refine ⟨?_, fun hplain => ?_, ?_⟩
  · have hread : ∀ key, read key = .ok (Context.follow r.value [key]) := by
      intro key
      simp only [read, (Context.lookup_producer hunique client current name [key]).2, hresult,
        Option.bind_some, hrequest, Option.map_some]
    rw [hread, hread, r.follow_value.1, r.follow_value.2]
    exact ⟨rfl, rfl⟩
  · obtain ⟨rest, hparts⟩ := exists_parts_behindOrigin h hplain
    exact Prod.mk.inj (splitUrl_eq hparts)
  · rintro rfl hpath hquery
    exact plain_of_splitUrl h (Prod.ext hpath hquery)

/-- Behind an authority, neither `://` in the query nor a slash in the fragment counts. -/
theorem BackendRequest.recorded_url_of_nested :
    let r : BackendRequest := { method := "GET", url := "http://[::1]:9/a?to=http://b/c#d/e?" }
    let result := ProducerResult.success "p" r { status := 200 }
    let results : ResultMap := ⟨["p"], [result]⟩
    Composed r.url "http://[::1]:9" "/a" (some "to=http://b/c") (some "d/e?") ∧
      results.Unique ∧ results.get? "p" = some result ∧ r.path = "/a" ∧
      r.query = some "to=http://b/c" ∧
      (Context.build .plain results none).lookup ⟨Variable.backendRequests.name, ["p", "path"]⟩ =
        .ok (.string "/a") := by
  intro r result results
  have hcomposed : Composed r.url "http://[::1]:9" "/a" (some "to=http://b/c") (some "d/e?") := by
    refine ⟨⟨"/a?to=http://b/c#d/e?", by decide +kernel, by decide +kernel⟩, .inr ⟨?_, ?_⟩⟩
    · exact ⟨"http", "[::1]:9", rfl, by simp, by simp⟩
    · exact .inr (by decide)
  have hunique : results.Unique := List.nodup_singleton _
  have hresult : results.get? "p" = some result := rfl
  have hplain : Plain r.url "http://[::1]:9" "/a" (some "to=http://b/c") (some "d/e?") := by
    rw [Plain, if_neg (by decide)]
    exact fun h => absurd h (by decide)
  obtain ⟨⟨hread, -⟩, hrecorded, -⟩ := recorded_url hcomposed hunique hresult rfl .plain none
  obtain ⟨hpath, hquery⟩ := hrecorded hplain
  exact ⟨hcomposed, hunique, hresult, hpath, hquery, hread.trans (by rw [hpath]; rfl)⟩

/-- A query that holds another url is taken for the rest of the request's own. -/
theorem BackendRequest.recorded_of_nested :
    let r : BackendRequest := { method := "GET", url := "/login?next=http://app/x" }
    Composed r.url "" "/login" (some "next=http://app/x") none ∧ r.path = "/x" ∧ r.query = none := by
  intro r
  have hrelative : ¬ IsAbsolute r.url := not_isAbsolute_of_slash (by decide)
  exact ⟨⟨⟨r.url, by decide +kernel, by decide +kernel⟩, .inl ⟨rfl, hrelative⟩⟩, by decide, by decide⟩

end Gateway
