import Gateway.Proofs.Router.Growth
import Gateway.Proofs.Router.Pattern
import Gateway.Router.Basic
import Mathlib.Data.List.Forall2

/-!
# Gateway.Proofs.Router.Construction — which endpoints make a router

Patterns are checked before any of them gets a route: each begins with a slash and has another shape
than those before it. The check is not all that the tree of routes asks. A pattern may be no route, and
a route may have no room beside those of patterns of other shapes; then there is no router, although
no pattern was refused.

So there are two questions, one after the other, and each is asked of the patterns in their order:
whether a pattern is proper beside the earlier ones, and whether it has a route beside theirs. Both are
`EachAfter`, and a failure of either is the `FirstFault`, of which there is one. That the check and the
tree look at all earlier patterns, and not only at those that were accepted so far, makes no difference,
because the first fault ends it.

`build_iff` says when there is a router in terms of patterns and routes and without the tree. It is not
said that the check would be enough. The last theorem has two patterns that pass it, and of which the
second has no route.
-/

set_option autoImplicit false

namespace Gateway

/-! ## One after the other -/

section

variable {β : Type} {P : List β → β → Prop} {earlier front xs : List β} {x y : β}

/-- Each element of a list is good beside the earlier ones. -/
def EachAfter (P : List β → β → Prop) (earlier xs : List β) : Prop :=
  ∀ front x back, xs = front ++ x :: back → P (earlier ++ front) x

/-- The first element of a list that is not good beside the earlier ones, and what is in front of it. -/
def FirstFault (P : List β → β → Prop) (earlier xs front : List β) (x : β) : Prop :=
  (∃ back, xs = front ++ x :: back) ∧ EachAfter P earlier front ∧ ¬ P (earlier ++ front) x

theorem eachAfter_nil : EachAfter P earlier [] := fun front x back h => by
  cases front <;> cases h

theorem eachAfter_cons :
    EachAfter P earlier (x :: xs) ↔ P earlier x ∧ EachAfter P (earlier ++ [x]) xs := by
  constructor
  · intro h
    refine ⟨by simpa using h [] x xs rfl, fun front y back hxs => ?_⟩
    simpa using h (x :: front) y back (by rw [hxs]; rfl)
  · rintro ⟨hx, hxs⟩ front y back heq
    cases front with
    | nil =>
      cases heq
      simpa using hx
    | cons z front =>
      cases heq
      simpa using hxs front y back rfl

theorem firstFault_head (h : ¬ P earlier x) : FirstFault P earlier (x :: xs) [] x :=
  ⟨⟨xs, rfl⟩, eachAfter_nil, by simpa using h⟩

theorem FirstFault.cons (hx : P earlier x) (h : FirstFault P (earlier ++ [x]) xs front y) :
    FirstFault P earlier (x :: xs) (x :: front) y := by
  obtain ⟨⟨back, rfl⟩, hfront, hy⟩ := h
  exact ⟨⟨back, rfl⟩, eachAfter_cons.2 ⟨hx, hfront⟩, by simpa using hy⟩

theorem FirstFault.not_eachAfter (h : FirstFault P earlier xs front x) : ¬ EachAfter P earlier xs := by
  obtain ⟨⟨back, hxs⟩, -, hx⟩ := h
  exact fun hall => hx (hall front x back hxs)

/-- There is no more than one first fault. -/
theorem FirstFault.unique {front' : List β} (h : FirstFault P earlier xs front x)
    (h' : FirstFault P earlier xs front' y) : x = y := by
  obtain ⟨⟨back, hxs⟩, hfront, hx⟩ := h
  obtain ⟨⟨back', hxs'⟩, hfront', hy⟩ := h'
  -- whichever stands in front of the other would be good
  rcases List.append_eq_append_iff.1 (hxs.symm.trans hxs') with ⟨middle, rfl, heq⟩ | ⟨middle, rfl, heq⟩
  · cases middle with
    | nil =>
      cases heq
      rfl
    | cons z middle =>
      cases heq
      exact absurd (hfront' front x middle rfl) hx
  · cases middle with
    | nil =>
      cases heq
      rfl
    | cons z middle =>
      cases heq
      exact absurd (hfront front' y middle rfl) hy

end

namespace Router

/-! ## The check -/

/-- Two segments are the same, but for the name of a wildcard. -/
def SameSegment (s t : List Char) : Prop :=
  s = t ∨ ∃ c name name', (c = ':' ∨ c = '*') ∧ s = c :: name ∧ t = c :: name'

/-- Two patterns are the same, but for the names of wildcards. -/
def SameShape (p q : String) : Prop :=
  List.Forall₂ SameSegment (splitAt '/' p.toList) (splitAt '/' q.toList)

/-- A pattern begins with a slash and is not the same as an earlier one. -/
def Proper (earlier : List String) (pattern : String) : Prop :=
  "/".toList <+: pattern.toList ∧ ∀ e ∈ earlier, ¬ SameShape e pattern

/-- What is said of a pattern that is not proper. -/
inductive Blamed (earlier : List String) (pattern : String) : PatternFault → Prop
  | noSlash (h : ¬ "/".toList <+: pattern.toList) : Blamed earlier pattern .noSlash
  | conflict (e : String) (hslash : "/".toList <+: pattern.toList) (he : e ∈ earlier)
      (hshape : SameShape e pattern) : Blamed earlier pattern (.conflict e)

/-- What the shape of a pattern keeps of a segment. -/
theorem sameSegment_iff {s t : List Char} :
    (match s with | ':' :: _ => [':'] | '*' :: _ => ['*'] | s => s) =
      (match t with | ':' :: _ => [':'] | '*' :: _ => ['*'] | t => t) ↔ SameSegment s t := by
  constructor
  · intro h
    split at h <;> split at h <;> grind [SameSegment]
  · rintro (rfl | ⟨c, name, name', rfl | rfl, rfl, rfl⟩) <;> rfl

theorem shape_eq_iff {p q : String} : shape p = shape q ↔ SameShape p q := by
  rw [shape, shape, ← List.forall₂_eq_eq_eq, List.forall₂_map_left_iff, List.forall₂_map_right_iff]
  exact ⟨fun h => h.imp fun _ _ => sameSegment_iff.1, fun h => h.imp fun _ _ => sameSegment_iff.2⟩

/-- The check blames the first pattern that is not proper. -/
theorem checkPatterns_cases (earlier patterns : List String) :
    EachAfter Proper earlier patterns ∧ checkPatterns earlier patterns = .ok () ∨
    ∃ front p fault, FirstFault Proper earlier patterns front p ∧ Blamed (earlier ++ front) p fault ∧
      checkPatterns earlier patterns = .error (.invalidPattern p fault) := by
  induction patterns generalizing earlier with
  | nil => exact .inl ⟨eachAfter_nil, rfl⟩
  | cons pattern patterns ih =>
    by_cases hslash : "/".toList <+: pattern.toList
    · have hbegins : (!beginsWith "/" pattern) = false := by
        rw [beginsWith_iff.2 hslash]
        rfl
      cases hfind : earlier.find? fun e => shape e = shape pattern with
      | some e =>
        have hfound := List.find?_some hfind
        have hshape : SameShape e pattern := shape_eq_iff.1 (by simpa using hfound)
        have he := List.mem_of_find?_eq_some hfind
        have hfault : ¬ Proper earlier pattern := fun h => h.2 e he hshape
        refine .inr ⟨[], pattern, .conflict e, firstFault_head hfault, ?_, ?_⟩
        · exact .conflict e hslash (by simpa using he) hshape
        · rw [checkPatterns, hbegins, hfind]
          rfl
      | none =>
        have hproper : Proper earlier pattern := by
          refine ⟨hslash, fun e he hshape => ?_⟩
          have hne := List.find?_eq_none.1 hfind e he
          exact hne (decide_eq_true (shape_eq_iff.2 hshape))
        have hcheck : checkPatterns earlier (pattern :: patterns) =
            checkPatterns (earlier ++ [pattern]) patterns := by
          rw [checkPatterns, hbegins, hfind]
          rfl
        -- a pattern that passes is one of the earlier ones for those that follow
        rcases ih (earlier ++ [pattern]) with ⟨hall, hok⟩ | ⟨front, p, fault, hfirst, hblamed, herror⟩
        · exact .inl ⟨eachAfter_cons.2 ⟨hproper, hall⟩, hcheck.trans hok⟩
        · exact .inr ⟨pattern :: front, p, fault, hfirst.cons hproper, by simpa using hblamed,
            hcheck.trans herror⟩
    · have hbegins : (!beginsWith "/" pattern) = true := by
        rw [Bool.not_eq_true', Bool.eq_false_iff]
        exact fun h => hslash (beginsWith_iff.1 h)
      have hfault : ¬ Proper earlier pattern := fun h => hslash h.1
      refine .inr ⟨[], pattern, .noSlash, firstFault_head hfault, .noSlash hslash, ?_⟩
      rw [checkPatterns, if_pos hbegins]

/-! ## The routes -/

/-- The routes of patterns. -/
def routesOf (patterns : List String) : Set Route := {r | ∃ p ∈ patterns, r.WrittenAs p}

/-- A pattern is a route that there is room for beside those of the earlier patterns. -/
def HasRoute (earlier : List String) (pattern : String) : Prop :=
  ∃ route : Route, route.WrittenAs pattern ∧ route.Fits (routesOf earlier)

def routes (r : Router) : Set Route := r.tree.elim ∅ RouteTree.routes

def WellFormed (r : Router) : Prop := ∀ tree ∈ r.tree, tree.WellFormed

variable {r : Router} {e : Endpoint} {es : List Endpoint} {earlier : List String}

theorem routesOf_append (earlier : List String) {pattern : String} {route : Route}
    (hroute : route.WrittenAs pattern) :
    routesOf (earlier ++ [pattern]) = {route} ∪ routesOf earlier := by
  ext q
  simp only [routesOf, Set.mem_ofPred_eq, List.mem_append, List.mem_singleton, Set.mem_union,
    Set.mem_singleton_iff]
  constructor
  · rintro ⟨p, hp | rfl, hq⟩
    · exact .inr ⟨p, hp, hq⟩
    · exact .inl (hq.unique hroute)
  · rintro (rfl | ⟨p, hp, hq⟩)
    · exact ⟨pattern, .inr rfl, hroute⟩
    · exact ⟨p, .inl hp, hq⟩

/-- The tree of a router with the route of an endpoint added. -/
def add? (r : Router) (e : Endpoint) (route : Route) : Option (RouteTree Endpoint) :=
  match r.tree with
  | some tree => tree.insert e route
  | none => RouteTree.single e [] route

theorem isSome_add? {route : Route} (hwf : r.WellFormed) (hroute : route.Closed) :
    (r.add? e route).isSome = true ↔ route.Fits r.routes := by
  obtain ⟨_ | tree⟩ := r
  · rw [Route.fits_iff hroute]
    exact RouteTree.isSome_single
  · rw [Route.fits_iff hroute]
    exact RouteTree.isSome_insert e tree (hwf tree rfl) route hroute true

theorem add?_eq_some {route : Route} (hwf : r.WellFormed) (hroute : route.Closed)
    {tree : RouteTree Endpoint} (h : r.add? e route = some tree) :
    tree.routes = {route} ∪ r.routes ∧ tree.WellFormed := by
  obtain ⟨_ | old⟩ := r
  · obtain ⟨hroutes, htree, -⟩ := RouteTree.single_eq_some h hroute
    exact ⟨by rw [hroutes]; exact (Set.union_empty _).symm, htree⟩
  · exact RouteTree.insert_eq_some e old (hwf old rfl) route hroute tree h

/-- An endpoint is mounted just if its pattern has a route. -/
theorem mount_cases (hwf : r.WellFormed) (hroutes : r.routes = routesOf earlier) (e : Endpoint) :
    (HasRoute earlier e.pattern ∧ ∃ grown, r.mount e = .ok grown ∧ grown.WellFormed ∧
      grown.routes = routesOf (earlier ++ [e.pattern])) ∨
    ¬ HasRoute earlier e.pattern ∧ r.mount e = .error (.unroutable e.pattern) := by
  have hmount : r.mount e = match (Route.read? e.pattern).bind (r.add? e) with
    | some tree => .ok ⟨some tree⟩
    | none => .error (.unroutable e.pattern) := rfl
  cases hread : Route.read? e.pattern with
  | none =>
    rw [hread] at hmount
    refine .inr ⟨?_, hmount⟩
    rintro ⟨route, hroute, -⟩
    cases hread.symm.trans (Route.read?_eq_some_iff.2 hroute)
  | some route =>
    have hroute : route.WrittenAs e.pattern := Route.read?_eq_some_iff.1 hread
    have hfits := isSome_add? (e := e) hwf hroute.closed
    rw [hread, Option.bind_some] at hmount
    cases hadd : r.add? e route with
    | none =>
      rw [hadd] at hmount hfits
      refine .inr ⟨?_, hmount⟩
      rintro ⟨route', hroute', hhas⟩
      obtain rfl : route' = route := hroute'.unique hroute
      exact Bool.noConfusion (hfits.2 (hroutes ▸ hhas))
    | some tree =>
      rw [hadd] at hmount hfits
      obtain ⟨hgrown, htree⟩ := add?_eq_some hwf hroute.closed hadd
      refine .inl ⟨⟨route, hroute, hroutes ▸ hfits.1 rfl⟩, ⟨some tree⟩, hmount, ?_, ?_⟩
      · rintro _ ⟨⟩
        exact htree
      · rw [routesOf_append earlier hroute, ← hroutes]
        exact hgrown

theorem foldlM_mount_cases (hwf : r.WellFormed) (hroutes : r.routes = routesOf earlier)
    (es : List Endpoint) :
    (EachAfter HasRoute earlier (es.map (·.pattern)) ∧ ∃ grown, es.foldlM mount r = .ok grown) ∨
    ∃ front p, FirstFault HasRoute earlier (es.map (·.pattern)) front p ∧
      es.foldlM mount r = .error (.unroutable p) := by
  induction es generalizing r earlier with
  | nil => exact .inl ⟨eachAfter_nil, r, rfl⟩
  | cons e es ih =>
    rcases mount_cases hwf hroutes e with ⟨hroute, grown, hmount, hgrown, hroutes'⟩ | ⟨hnone, hmount⟩
    -- a mounted endpoint leaves a tree of the routes so far, and the rest goes on with that
    · have hstep : (e :: es).foldlM mount r = es.foldlM mount grown := by
        rw [List.foldlM_cons, hmount]
        rfl
      rw [hstep]
      rcases ih hgrown hroutes' with ⟨hall, hok⟩ | ⟨front, p, hfirst, herror⟩
      · exact .inl ⟨eachAfter_cons.2 ⟨hroute, hall⟩, hok⟩
      · exact .inr ⟨e.pattern :: front, p, hfirst.cons hroute, herror⟩
    · refine .inr ⟨[], e.pattern, firstFault_head hnone, ?_⟩
      rw [List.foldlM_cons, hmount]
      rfl

/-- What becomes of endpoints: a pattern is refused, or one has no route, or there is a router. -/
theorem build_cases {patterns : List String} (hpatterns : es.map (·.pattern) = patterns) :
    (∃ front p fault, FirstFault Proper [] patterns front p ∧ Blamed front p fault ∧
      build es = .error (.refused (.invalidPattern p fault))) ∨
    EachAfter Proper [] patterns ∧
      ((∃ front p, FirstFault HasRoute [] patterns front p ∧ build es = .error (.unroutable p)) ∨
        EachAfter HasRoute [] patterns ∧ ∃ r, build es = .ok r) := by
  have hempty : WellFormed ⟨none⟩ := fun _ h => by cases h
  have hnone : routes ⟨none⟩ = routesOf [] := by
    ext q
    simp [routes, routesOf]
  have hbuild : build es = ((checkPatterns [] (es.map (·.pattern))).mapError .refused >>= fun _ =>
      es.foldlM mount ⟨none⟩) := rfl
  rw [hpatterns] at hbuild
  rcases checkPatterns_cases [] patterns with
    ⟨hproper, hcheck⟩ | ⟨front, p, fault, hfirst, hblamed, hcheck⟩
  · rw [hcheck] at hbuild
    refine .inr ⟨hproper, ?_⟩
    rcases hpatterns ▸ foldlM_mount_cases hempty hnone es with
      ⟨hall, r, hok⟩ | ⟨front, p, hfirst, herror⟩
    · exact .inr ⟨hall, r, hbuild.trans hok⟩
    · exact .inl ⟨front, p, hfirst, hbuild.trans herror⟩
  · rw [hcheck] at hbuild
    exact .inl ⟨front, p, fault, hfirst, hblamed, hbuild⟩

/-- Endpoints make a router if and only if each pattern begins with a slash, has another shape than
those before it, and has a route beside theirs. If a pattern does not begin with a slash or has the
shape of an earlier one, the first such pattern is refused for that. But patterns that pass this check
make no router either if one of them has no route. -/
theorem build_iff (es : List Endpoint) :
    let patterns := es.map (·.pattern)
    ((∃ r, build es = .ok r) ↔ EachAfter Proper [] patterns ∧ EachAfter HasRoute [] patterns) ∧
    ((∃ error, build es = .error (.refused error)) ↔ ¬ EachAfter Proper [] patterns) ∧
    (∀ error, build es = .error (.refused error) → ∃ front p fault,
      FirstFault Proper [] patterns front p ∧ Blamed front p fault ∧ error = .invalidPattern p fault) ∧
    ∀ p, build es = .error (.unroutable p) ↔
      EachAfter Proper [] patterns ∧ ∃ front, FirstFault HasRoute [] patterns front p := by
  intro patterns
  have hpatterns : es.map (·.pattern) = patterns := rfl
  rcases build_cases hpatterns with ⟨front, p, fault, hfirst, hblamed, hbuild⟩ |
    ⟨hproper, ⟨front, p, hfirst, hbuild⟩ | ⟨hroutes, r, hbuild⟩⟩
  · have hnot : ¬ EachAfter Proper [] patterns := hfirst.not_eachAfter
    rw [hbuild]
    refine ⟨by simp [hnot], by simp [hnot], ?_, by simp [hnot]⟩
    rintro _ ⟨⟩
    exact ⟨front, p, fault, hfirst, hblamed, rfl⟩
  · have hnot : ¬ EachAfter HasRoute [] patterns := hfirst.not_eachAfter
    rw [hbuild]
    refine ⟨by simp [hnot], by simp [hproper], by rintro _ ⟨⟩, fun q => ⟨?_, ?_⟩⟩
    · rintro ⟨⟩
      exact ⟨hproper, front, hfirst⟩
    · rintro ⟨-, front', hfirst'⟩
      rw [hfirst.unique hfirst']
  · rw [hbuild]
    refine ⟨by simp [hproper, hroutes], by simp [hproper], by rintro _ ⟨⟩, fun q => ⟨?_, ?_⟩⟩
    · rintro ⟨⟩
    · rintro ⟨-, front, hfirst⟩
      exact absurd hroutes hfirst.not_eachAfter

/-- An endpoint that has nothing to say. -/
def silent (pattern : String) : Endpoint where
  pattern := pattern
  graph := ⟨[], [], [.parallel []], 0⟩
  template := some {}

/-- A wildcard for a segment has no route beside one for the rest, although the patterns differ in
more than names. -/
theorem build_unroutable :
    ¬ SameShape "/files/*path" "/files/:id" ∧
      build [silent "/files/*path", silent "/files/:id"] = .error (.unroutable "/files/:id") := by
  have hcheck : checkPatterns [] ["/files/*path", "/files/:id"] = .ok () := rfl
  have hrest : Route.read? (silent "/files/*path").pattern =
      some (Route.ofBytes (Utf8.encode "/files/") ++ [.rest]) := by cbv
  have hsegment : Route.read? (silent "/files/:id").pattern =
      some (Route.ofBytes (Utf8.encode "/files/") ++ [.segment]) := by cbv
  let files : Router :=
    ⟨some (.node (Utf8.encode "/files/") none [] (.rest (silent "/files/*path")))⟩
  have hfirst : mount ⟨none⟩ (silent "/files/*path") = .ok files := by
    rw [mount, hrest]
    rfl
  -- below the common label there is a wildcard for the rest, which takes nothing beside it
  have hsecond : mount files (silent "/files/:id") = .error (.unroutable "/files/:id") := by
    rw [mount, hsegment]
    rfl
  constructor
  · rw [← shape_eq_iff]
    decide
  · change ((checkPatterns [] ["/files/*path", "/files/:id"]).mapError _ >>= fun _ => _) = _
    rw [hcheck]
    change [silent "/files/*path", silent "/files/:id"].foldlM mount ⟨none⟩ = _
    rw [List.foldlM_cons, hfirst]
    change [silent "/files/:id"].foldlM mount files = _
    rw [List.foldlM_cons, hsecond]
    rfl

end Router

end Gateway
