import Gateway.Proofs.Router.Room

/-!
# Gateway.Proofs.Router.Spelling — the routes of a tree

A tree has the routes that its nodes and wildcards spell. It is well-formed if no part of it is without
a route and no two nodes compete for a byte. A tree is begun with a single route, and a node splits
where a route leaves its label: both succeed just if there is room for the route, and leave a well-formed
tree.

Routes are a set, since the order in which they were added leaves no trace that counts, and labels are
no more than bytes that several routes share. So `routes` forgets how the bytes are divided among nodes,
and a node with a long label has the same routes as two nodes with one half each (`beyond_routes`). This
is what makes splitting a node no event at all.

Well-formedness is needed in both directions. Children that begin with the same byte would hide each
other's routes. And a node without any route, or a wildcard that leads nowhere, would stand in the way
of routes although there is nothing to collide with.
-/

set_option autoImplicit false

namespace Gateway

namespace Route

/-- The route of some bytes, and no wildcard. -/
def ofBytes (bytes : Bytes) : Route := bytes.map .byte

@[simp] theorem ofBytes_nil : ofBytes [] = [] := rfl

@[simp] theorem ofBytes_cons (b : UInt8) (bytes : Bytes) :
    ofBytes (b :: bytes) = .byte b :: ofBytes bytes := rfl

@[simp] theorem ofBytes_append (front back : Bytes) :
    ofBytes (front ++ back) = ofBytes front ++ ofBytes back := List.map_append

/-- What is left of the routes that begin with some bytes. -/
def beyond (Q : Set Route) (bytes : Bytes) : Set Route := {r | ofBytes bytes ++ r ∈ Q}

variable {Q : Set Route} {r : Route}

theorem closed_ofBytes_append {bytes : Bytes} : Closed (ofBytes bytes ++ r) ↔ Closed r := by
  induction bytes with
  | nil => rfl
  | cons b bytes ih => exact ih

/-- Where others go on, a wildcard for the rest may begin in any case. -/
theorem hasRoom_congr (h : Q.Nonempty) (allowed allowed' : Bool) :
    HasRoom Q allowed r ↔ HasRoom Q allowed' r := by
  rcases r with _ | ⟨_ | _ | _, r⟩ <;> simp [HasRoom, h]

/-- Bytes with which others begin can be passed over. -/
theorem hasRoom_beyond {bytes : Bytes} (h : (beyond Q bytes).Nonempty) (allowed allowed' : Bool) :
    HasRoom Q allowed (ofBytes bytes ++ r) ↔ HasRoom (beyond Q bytes) allowed' r := by
  induction bytes generalizing Q allowed with
  | nil => exact hasRoom_congr h allowed allowed'
  | cons b bytes ih => exact ih (Q := after Q (.byte b)) h _

end Route

namespace RouteTree

open Route

variable {α : Type}

/-! ## The routes of a tree -/

/-- The routes that end in one place: one, if it has a value. -/
def ends (value : Option α) : Set Route := {r | value.isSome = true ∧ r = []}

mutual

def routes : RouteTree α → Set Route
  | .node bytes value children wildcard =>
    (ofBytes bytes ++ ·) '' (ends value ∪ routesAmong children ∪ routesBehind wildcard)

def routesAmong : List (RouteTree α) → Set Route
  | [] => ∅
  | child :: children => routes child ∪ routesAmong children

def routesBehind : RouteWildcard α → Set Route
  | .absent => ∅
  | .segment value => (.segment :: ·) '' ends value
  | .segmentThen value next => (.segment :: ·) '' (ends value ∪ routes next)
  | .rest _ => {[.rest]}

end

mutual

/-- No part of the tree is without a route, and no two nodes behind one begin with the same byte. -/
def WellFormed : RouteTree α → Prop
  | .node _ value children wildcard =>
    (value.isSome = true ∨ children ≠ [] ∨ wildcard ≠ .absent) ∧ WellFormedAmong children ∧
      WellFormedBehind wildcard

def WellFormedAmong : List (RouteTree α) → Prop
  | [] => True
  | child :: children =>
    WellFormed child ∧ child.label ≠ [] ∧ (∀ other ∈ children, other.label.head? ≠ child.label.head?) ∧
      WellFormedAmong children

def WellFormedBehind : RouteWildcard α → Prop
  | .absent => True
  | .segment value => value.isSome = true
  | .segmentThen _ next => WellFormed next ∧ [] ∉ routes next
  | .rest _ => True

end

variable {bytes : Bytes} {value : Option α} {children : List (RouteTree α)}
  {wildcard : RouteWildcard α} {tree child : RouteTree α} {v : α} {q r : Route} {b : UInt8}
  {s : RouteStep}

@[simp] theorem ends_none : ends (none : Option α) = ∅ := by
  ext r
  simp [ends]

@[simp] theorem ends_some (v : α) : ends (some v) = {[]} := by
  ext r
  simp [ends]

theorem mem_ends : r ∈ ends value ↔ value.isSome = true ∧ r = [] := Iff.rfl

theorem label_ne_nil (h : tree.label.head? = some b) : tree.label ≠ [] := fun hnil => by
  rw [hnil] at h
  cases h

theorem exists_head_label (h : tree.label ≠ []) : ∃ b, tree.label.head? = some b :=
  ⟨_, List.head?_eq_some_head h⟩

/-- Behind a part of a label the tree goes on with what is left of the label. -/
theorem beyond_routes (front back : Bytes) :
    beyond (routes (.node (front ++ back) value children wildcard)) front =
      routes (.node back value children wildcard) := by
  ext r
  simp [beyond, routes]

theorem routes_append (front back : Bytes) : routes (.node (front ++ back) value children wildcard) =
    (ofBytes front ++ ·) '' routes (.node back value children wildcard) := by
  ext r
  simp [routes]

theorem beyond_label : beyond (routes (.node bytes value children wildcard)) bytes =
    ends value ∪ routesAmong children ∪ routesBehind wildcard := by
  ext r
  simp [beyond, routes]

theorem exists_mem_routesBehind (h : r ∈ routesBehind wildcard) :
    ∃ q, r = .segment :: q ∨ r = [.rest] := by
  cases wildcard with
  | absent => exact absurd h (Set.notMem_empty r)
  | segment value =>
    obtain ⟨q, -, rfl⟩ := h
    exact ⟨q, .inl rfl⟩
  | segmentThen value next =>
    obtain ⟨q, -, rfl⟩ := h
    exact ⟨q, .inl rfl⟩
  | rest v => exact ⟨[], .inr h⟩

/-- The routes of a node with a label begin with the first byte of that. -/
theorem exists_mem_routes {a : UInt8} (ha : tree.label.head? = some a) (h : r ∈ routes tree) :
    ∃ q, r = .byte a :: q := by
  obtain ⟨bytes, value, children, wildcard⟩ := tree
  obtain ⟨q, -, rfl⟩ := h
  cases bytes with
  | nil => cases ha
  | cons b bytes =>
    cases ha
    exact ⟨_, rfl⟩

theorem after_routes_of_ne {a : UInt8} (ha : tree.label.head? = some a) (hs : s ≠ .byte a) :
    after (routes tree) s = ∅ := by
  refine Set.eq_empty_of_forall_notMem fun r hr => hs ?_
  obtain ⟨q, hq⟩ := exists_mem_routes ha hr
  exact (List.cons.inj hq).1

theorem exists_mem_routesAmong (hwf : WellFormedAmong children) (h : r ∈ routesAmong children) :
    ∃ child ∈ children, ∃ a q, child.label.head? = some a ∧ r = .byte a :: q := by
  induction children with
  | nil => exact absurd h (Set.notMem_empty r)
  | cons child children ih =>
    obtain ⟨-, hlabel, -, hrest⟩ := hwf
    rcases h with h | h
    · obtain ⟨a, ha⟩ := exists_head_label hlabel
      obtain ⟨q, hq⟩ := exists_mem_routes ha h
      exact ⟨child, List.mem_cons_self, a, q, ha, hq⟩
    · obtain ⟨other, hother, hr⟩ := ih hrest h
      exact ⟨other, List.mem_cons_of_mem _ hother, hr⟩

mutual

theorem routes_nonempty : (tree : RouteTree α) → tree.WellFormed → (routes tree).Nonempty
  | .node bytes value children wildcard, ⟨hlive, hchildren, hwildcard⟩ => by
    refine Set.Nonempty.image _ ?_
    rcases hlive with hvalue | hne | hne
    · exact ⟨[], .inl (.inl ⟨hvalue, rfl⟩)⟩
    · exact (routesAmong_nonempty children hne hchildren).mono fun _ h => .inl (.inr h)
    · exact (routesBehind_nonempty wildcard hne hwildcard).mono fun _ h => .inr h

theorem routesAmong_nonempty : (children : List (RouteTree α)) → children ≠ [] →
    WellFormedAmong children → (routesAmong children).Nonempty
  | [], hne, _ => absurd rfl hne
  | child :: _, _, ⟨hchild, _⟩ => (routes_nonempty child hchild).mono fun _ h => .inl h

theorem routesBehind_nonempty : (wildcard : RouteWildcard α) → wildcard ≠ .absent →
    WellFormedBehind wildcard → (routesBehind wildcard).Nonempty
  | .absent, hne, _ => absurd rfl hne
  | .segment _, _, hvalue => ⟨[.segment], [], ⟨hvalue, rfl⟩, rfl⟩
  | .segmentThen _ next, _, ⟨hnext, _⟩ =>
    ((routes_nonempty next hnext).mono fun _ h => .inr h).image _
  | .rest _, _, _ => ⟨[.rest], rfl⟩

end

/-! ## A tree of one route -/

theorem isSome_single : (single v bytes r).isSome = true ↔
    HasRoom ∅ (bytes.getLast?.all (· = slash)) r := by
  fun_induction single v bytes r <;> simp_all [HasRoom, opens]

theorem single_eq_some {t : RouteTree α} (h : single v bytes r = some t) (hr : Closed r) :
    t.routes = {ofBytes bytes ++ r} ∧ t.WellFormed ∧ bytes <+: t.label := by
  fun_induction single v bytes r generalizing t with
  | case1 bytes =>
    cases h
    refine ⟨?_, ?_, List.prefix_rfl⟩
    · simp [routes, routesAmong, routesBehind]
    · simp [WellFormed, WellFormedAmong, WellFormedBehind]
  | case2 bytes b steps ih =>
    obtain ⟨hroutes, hwf, hlabel⟩ := ih h hr
    exact ⟨by simpa using hroutes, hwf, (List.prefix_append _ _).trans hlabel⟩
  | case3 bytes =>
    cases h
    refine ⟨?_, ?_, List.prefix_rfl⟩
    · simp [routes, routesAmong, routesBehind]
    · simp [WellFormed, WellFormedAmong, WellFormedBehind]
  | case4 bytes steps hne ih =>
    obtain ⟨next, hnext, rfl⟩ := Option.map_eq_some_iff.1 h
    obtain ⟨hroutes, hwf, -⟩ := ih hnext hr
    refine ⟨?_, ?_, List.prefix_rfl⟩
    · simp [routes, routesAmong, routesBehind, hroutes]
    -- a wildcard with a tree behind it has no end of its own in that tree
    · refine ⟨by simp, trivial, hwf, ?_⟩
      rw [hroutes]
      exact fun hnil => hne (Set.mem_singleton_iff.1 hnil).symm
  | case5 bytes steps hslash =>
    cases h
    obtain rfl : steps = [] := hr
    refine ⟨?_, ?_, List.prefix_rfl⟩
    · simp [routes, routesAmong, routesBehind]
    · simp [WellFormed, WellFormedAmong, WellFormedBehind]
  | case6 => cases h

/-! ## A node that a route goes on from -/

section Extend

variable {a : UInt8}

theorem isSome_extend (hchild : child.WellFormed) (ha : child.label.head? = some a)
    (hr : r.head? ≠ some (.byte a)) (allowed : Bool) :
    (extend v bytes child r).isSome = true ↔ HasRoom (routes child) allowed r := by
  -- all routes of the child go on with its first byte, and the new one does not
  have hnone : ∀ s q, s ≠ .byte a → s :: q ∉ routes child := fun s q hs hq =>
    Set.eq_empty_iff_forall_notMem.1 (after_routes_of_ne ha hs) q hq
  cases r with
  | nil =>
    have hnil : [] ∉ routes child := fun hnil => by
      obtain ⟨q, hq⟩ := exists_mem_routes ha hnil
      cases hq
    simp [extend, HasRoom, hnil]
  | cons s r =>
    have hs : s ≠ .byte a := fun hs => hr (hs ▸ rfl)
    cases s with
    | byte b =>
      rw [HasRoom, after_routes_of_ne ha hs]
      simp [extend, isSome_single, opens]
    | segment =>
      rw [HasRoom, after_routes_of_ne ha hs,
        and_iff_right fun q => hnone .rest q RouteStep.noConfusion]
      cases r with
      | nil => simp [extend, HasRoom]
      | cons t r => simp [extend, isSome_single]
    | rest =>
      have hsegment : ∀ q, .segment :: q ∉ routes child := fun q =>
        hnone .segment q RouteStep.noConfusion
      simp [extend, HasRoom, hnone .rest r hs, hsegment, routes_nonempty child hchild]

theorem extend_eq_some {t : RouteTree α} (h : extend v bytes child r = some t) (hr : Closed r)
    (hchild : child.WellFormed) (ha : child.label.head? = some a) (hhead : r.head? ≠ some (.byte a)) :
    t.routes = (ofBytes bytes ++ ·) '' ({r} ∪ routes child) ∧ t.WellFormed ∧ t.label = bytes := by
  have halone : WellFormedAmong [child] := ⟨hchild, label_ne_nil ha, by simp, trivial⟩
  have hlive : ([child] : List (RouteTree α)) ≠ [] := List.cons_ne_nil _ _
  rcases r with _ | ⟨b | _ | _, r⟩
  · cases h
    refine ⟨?_, ⟨.inl rfl, halone, trivial⟩, rfl⟩
    simp [routes, routesAmong, routesBehind]
  · obtain ⟨next, hnext, rfl⟩ := Option.map_eq_some_iff.1 h
    obtain ⟨hroutes, hwf, hprefix⟩ := single_eq_some hnext hr
    have hb : next.label.head? = some b := by
      obtain ⟨back, hback⟩ := hprefix
      rw [← hback]
      rfl
    have hother : next.label.head? ≠ child.label.head? := by
      rw [hb, ha]
      rintro heq
      exact hhead (congrArg (fun b => some (RouteStep.byte b)) (Option.some.inj heq))
    refine ⟨?_, ⟨.inr (.inl (List.cons_ne_nil _ _)), ?_, trivial⟩, rfl⟩
    · simp [routes, routesAmong, routesBehind, hroutes]
    · exact ⟨hchild, label_ne_nil ha, by simpa using hother, hwf, label_ne_nil hb, by simp, trivial⟩
  · cases r with
    | nil =>
      cases h
      refine ⟨?_, ⟨.inr (.inl hlive), halone, rfl⟩, rfl⟩
      simp [routes, routesAmong, routesBehind]
    | cons s r =>
      obtain ⟨next, hnext, rfl⟩ := Option.map_eq_some_iff.1 h
      obtain ⟨hroutes, hwf, -⟩ := single_eq_some hnext hr
      refine ⟨?_, ⟨.inr (.inl hlive), halone, hwf, by simp [hroutes]⟩, rfl⟩
      simp [routes, routesAmong, routesBehind, hroutes]
  · cases h
    obtain rfl : r = [] := hr
    refine ⟨?_, ⟨.inr (.inl hlive), halone, trivial⟩, rfl⟩
    simp [routes, routesAmong, routesBehind]

end Extend

end RouteTree

end Gateway
