import Gateway.Config.Build
import Gateway.Proofs.Evaluation.Failing
import Gateway.Proofs.Http.Forwarding

/-!
# Gateway.Proofs.Backend.Resolution — urls behind an origin

A path, with or without a query, is put behind the origin and the base path of the backend. What
looks absolute is not, and a url looks absolute as soon as `://` occurs in it anywhere: a query that
holds another url takes the request away from its backend.

`resolve_eq_iff` is an iff because each half of it alone says too little. That urls without `://` are
joined would also be true of a test that asked for a scheme at the front of the url, and that urls with
`://` are kept would be true if all were. Only together do they say that the test is for these three
characters, wherever they stand.

The two sides can be told apart because a joined url is never the url that it was made from. For this
something has to be in front of it, and that is all that is needed of an origin: it is what an accepted
declaration has less the slashes at its end, and slashes alone are no url (`Url.exists_ne_slash`). What
an origin looks like otherwise does not matter here.
-/

set_option autoImplicit false

namespace Gateway

/-! ## Origins -/

theorem Url.readScheme?_of_slashes {cs : List Char} (h : ∀ c ∈ cs, c = '/') :
    readScheme? cs = none := by
  cases cs with
  | nil => rfl
  | cons c cs =>
    obtain rfl : c = '/' := h c List.mem_cons_self
    rfl

/-- Slashes alone are no url. -/
theorem Url.exists_ne_slash {s : String} {url : Url} (h : Url.read s = .ok url) :
    ∃ c ∈ s.toList, c ≠ '/' := by
  by_contra hnone
  push Not at hnone
  -- what is read is the text less its ends and some characters within, so it has nothing new
  have hcleaned : ∀ c ∈ cleaned s, c = '/' := by
    intro c hc
    obtain ⟨-, -, front, back, heq, -⟩ := padded_trimBoth (fun c => c.toNat ≤ 0x20) s
    apply hnone
    rw [heq]
    simp [(List.mem_filter.1 hc).1]
  rw [Url.read, readScheme?_of_slashes hcleaned] at h
  cases h

theorem BackendDecl.of_backend {d : BackendDecl} {label : BackendLabel} {b : Backend}
    (h : d.backend label = .ok b) :
    (∃ url, Url.read d.origin = .ok url) ∧ b.origin = trimRight (· == '/') d.origin := by
  obtain ⟨url, hread, h⟩ := exists_of_bind h
  refine ⟨⟨url, mapError_eq_ok.1 hread⟩, ?_⟩
  split at h
  · cases h
  · obtain ⟨headers, -, h⟩ := exists_of_bind h
    cases h
    rfl

/-- The origin of a backend is not empty. -/
theorem BackendDecl.origin_ne_empty {d : BackendDecl} {label : BackendLabel} {b : Backend}
    (h : d.backend label = .ok b) : b.origin.toList ≠ [] := by
  obtain ⟨⟨url, hread⟩, horigin⟩ := BackendDecl.of_backend h
  obtain ⟨c, hc, hne⟩ := Url.exists_ne_slash hread
  intro hempty
  rw [horigin, trimRight, String.toList_ofList, List.reverse_eq_nil_iff,
    List.dropWhile_eq_nil_iff] at hempty
  exact hne (by simpa using hempty c (List.mem_reverse.2 hc))

namespace Backend

variable {b : Backend} {url : String}

theorem resolve_of_absolute (h : "://".toList <:+: url.toList) : b.resolve url = url :=
  if_pos (hasText_iff.2 h)

theorem resolve_of_relative (h : ¬ "://".toList <:+: url.toList)
    (hurl : ∀ c ∈ url.toList.head?, c = '/' ∨ c = '?') :
    b.resolve url = b.origin ++ b.basePath ++ url := by
  have hbegins : (url.isEmpty || beginsWith "/" url || beginsWith "?" url) = true := by
    simp only [Bool.or_eq_true, String.isEmpty_iff, beginsWith_iff]
    rw [← String.toList_eq_nil_iff]
    cases hcs : url.toList with
    | nil => exact .inl (.inl rfl)
    | cons c cs =>
      rcases hurl c (by rw [hcs]; rfl) with rfl | rfl
      · exact .inl (.inr ⟨cs, rfl⟩)
      · exact .inr ⟨cs, rfl⟩
  rw [resolve, if_neg (mt hasText_iff.1 h), if_pos hbegins]

/-- A url that is empty, or begins with the slash of a path or the question mark of a query, is put
behind the origin and the base path of an accepted backend if and only if `://` occurs nowhere in it.
If it does, the url is taken as it is. -/
theorem resolve_eq_iff {d : BackendDecl} {label : BackendLabel} (haccepted : d.backend label = .ok b)
    (hurl : ∀ c ∈ url.toList.head?, c = '/' ∨ c = '?') :
    (b.resolve url = b.origin ++ b.basePath ++ url ↔ ¬ "://".toList <:+: url.toList) ∧
      ("://".toList <:+: url.toList → b.resolve url = url) := by
  refine ⟨⟨fun heq habsolute => ?_, fun h => resolve_of_relative h hurl⟩, resolve_of_absolute⟩
  -- the origin would have to be empty
  rw [resolve_of_absolute habsolute] at heq
  have hlength := congrArg (fun s : String => s.toList.length) heq
  simp only [String.toList_append, List.length_append] at hlength
  exact BackendDecl.origin_ne_empty haccepted (List.length_eq_zero_iff.1 (by omega))

/-- A path and a query may hold a colon and two slashes, but not one behind the other. -/
theorem resolve_eq_of_colon :
    let d : BackendDecl := { origin := "http://[::1]:9000/", basePath := "/api/" }
    let b : Backend := { label := .named "api", origin := "http://[::1]:9000", basePath := "/api" }
    let url := "//a/b:c?next=/d:e"
    d.backend (.named "api") = .ok b ∧ (∀ c ∈ url.toList.head?, c = '/' ∨ c = '?') ∧
      b.resolve url = "http://[::1]:9000/api//a/b:c?next=/d:e" := by
  intro d b url
  have haccepted : d.backend (.named "api") = .ok b := by cbv
  have hurl : ∀ c ∈ url.toList.head?, c = '/' ∨ c = '?' := by simp [url]
  exact ⟨haccepted, hurl, (resolve_eq_iff haccepted hurl).1.2 (by decide +kernel)⟩

/-- The url of a client that names its application in the query is not put behind the origin. -/
theorem resolve_ne_of_nested :
    let d : BackendDecl := { origin := "http://[::1]:9000", basePath := "api" }
    let b : Backend := { label := .named "api", origin := "http://[::1]:9000", basePath := "/api" }
    let url := "/login?next=http://app"
    d.backend (.named "api") = .ok b ∧ (∀ c ∈ url.toList.head?, c = '/' ∨ c = '?') ∧
      b.resolve url = "/login?next=http://app" ∧
      b.resolve url ≠ b.origin ++ b.basePath ++ url := by
  intro d b url
  have haccepted : d.backend (.named "api") = .ok b := by cbv
  have hresolved : b.resolve url = "/login?next=http://app" := by decide +kernel
  refine ⟨haccepted, by simp [url], hresolved, ?_⟩
  rw [hresolved]
  decide

end Backend

end Gateway
