import Gateway.Proofs.Router.Spelling

/-!
# Gateway.Proofs.Router.Growth — trees grow by the routes they have room for

A route can be added to a well-formed tree if and only if there is room for it beside the routes of the
tree. The tree then has that route besides, and is well-formed again.

Adding follows the route down the tree: along the label of a node, to one of its children or to its
wildcard, and where it leaves the label the node is split. `parting` is the case split that all of this
rests on. In each case the tree is taken apart in the same way as the set of its routes, and room for a
route in the whole is room for what is left of it in a part. The three theorems about trees, children
and wildcards are one induction.

That it succeeds and what comes of it are proved apart. Both go along the same recursion, but the first
is an iff and needs only what is known of room, while the second says for a given result which routes it
has. Together they are what a step of the construction keeps.

The tree never asks which routes there are. What it asks is whether some node is there, and in a tree
that is not well-formed, with a node that leads nowhere, it would refuse a route that there is room for.
-/

set_option autoImplicit false

namespace Gateway

namespace RouteTree

open Route

variable {α : Type} {bytes : Bytes} {value : Option α} {children : List (RouteTree α)}
  {wildcard : RouteWildcard α} {tree child : RouteTree α} {v : α} {r : Route} {b : UInt8}
  {s : RouteStep}

/-! ## Adding a route -/

/-- A route leaves a label somewhere before its end, or goes on behind it. -/
theorem parting (bytes : Bytes) (r : Route) :
    (∃ front a back q, bytes = front ++ a :: back ∧ r = ofBytes front ++ q ∧
      q.head? ≠ some (.byte a) ∧ shared bytes r = front.length) ∨
    ∃ q, r = ofBytes bytes ++ q ∧ shared bytes r = bytes.length := by
  fun_induction shared bytes r with
  | case1 bytes b r ih =>
    rcases ih with ⟨front, c, back, q, rfl, rfl, hq, hshared⟩ | ⟨q, rfl, hshared⟩
    · exact .inl ⟨_ :: front, c, back, q, rfl, rfl, hq, by rw [hshared]; rfl⟩
    · exact .inr ⟨q, rfl, by rw [hshared]; rfl⟩
  | case2 a bytes b r hne =>
    refine .inl ⟨[], a, bytes, .byte b :: r, rfl, rfl, ?_, rfl⟩
    exact fun heq => hne (RouteStep.byte.inj (Option.some.inj heq)).symm
  | case3 bytes r hne =>
    cases bytes with
    | nil => exact .inr ⟨r, rfl, rfl⟩
    | cons a bytes =>
      refine .inl ⟨[], a, bytes, r, rfl, rfl, fun heq => ?_, rfl⟩
      obtain ⟨q, rfl⟩ : ∃ q, r = .byte a :: q := by
        cases r with
        | nil => cases heq
        | cons s q =>
          cases heq
          exact ⟨q, rfl⟩
      exact hne a bytes a q rfl rfl

section

variable {a : UInt8}

/-- A route that leaves the label splits the node. -/
theorem insert_of_parting {front back : Bytes}
    (h : shared (front ++ a :: back) (ofBytes front ++ r) = front.length) :
    insert v (.node (front ++ a :: back) value children wildcard) (ofBytes front ++ r) =
      extend v front (.node (a :: back) value children wildcard) r := by
  have hdrop : (ofBytes front ++ r).drop front.length = r := List.drop_left' (by simp [ofBytes])
  unfold insert
  simp [h, hdrop]

theorem insert_of_end (h : shared bytes (ofBytes bytes ++ []) = bytes.length) :
    insert v (.node bytes value children wildcard) (ofBytes bytes ++ []) =
      if value.isSome then none else some (.node bytes (some v) children wildcard) := by
  have hdrop : (ofBytes bytes ++ []).drop bytes.length = [] := List.drop_left' (by simp [ofBytes])
  unfold insert
  simp only [h, hdrop, Nat.lt_irrefl, if_false]

theorem insert_of_byte (h : shared bytes (ofBytes bytes ++ .byte b :: r) = bytes.length) :
    insert v (.node bytes value children wildcard) (ofBytes bytes ++ .byte b :: r) =
      (insertAmong v b children r).map fun children => .node bytes value children wildcard := by
  have hdrop : (ofBytes bytes ++ .byte b :: r).drop bytes.length = .byte b :: r :=
    List.drop_left' (by simp [ofBytes])
  unfold insert
  simp only [h, hdrop, Nat.lt_irrefl, if_false]

theorem insert_of_segment (h : shared bytes (ofBytes bytes ++ .segment :: r) = bytes.length) :
    insert v (.node bytes value children wildcard) (ofBytes bytes ++ .segment :: r) =
      (insertSegment v wildcard r).map fun wildcard => .node bytes value children wildcard := by
  have hdrop : (ofBytes bytes ++ .segment :: r).drop bytes.length = .segment :: r :=
    List.drop_left' (by simp [ofBytes])
  unfold insert
  simp only [h, hdrop, Nat.lt_irrefl, if_false]

theorem insert_of_rest (h : shared bytes (ofBytes bytes ++ .rest :: r) = bytes.length) :
    insert v (.node bytes value children wildcard) (ofBytes bytes ++ .rest :: r) =
      match wildcard with
      | .absent => some (.node bytes value children (.rest v))
      | _ => none := by
  have hdrop : (ofBytes bytes ++ .rest :: r).drop bytes.length = .rest :: r :=
    List.drop_left' (by simp [ofBytes])
  unfold insert
  cases wildcard <;> simp only [h, hdrop, Nat.lt_irrefl, if_false]

end

/-! ### What goes on behind a node -/

theorem byte_mem_onward {q : Route} :
    .byte b :: q ∈ ends value ∪ routesAmong children ∪ routesBehind wildcard ↔
      .byte b :: q ∈ routesAmong children := by
  refine ⟨?_, fun h => .inl (.inr h)⟩
  rintro ((h | h) | h)
  · cases h.2
  · exact h
  · obtain ⟨p, hp | hp⟩ := exists_mem_routesBehind h <;> cases hp

theorem wildcard_mem_onward {q : Route} (hwf : WellFormedAmong children) (hs : ∀ b, s ≠ .byte b) :
    s :: q ∈ ends value ∪ routesAmong children ∪ routesBehind wildcard ↔
      s :: q ∈ routesBehind wildcard := by
  refine ⟨?_, fun h => .inr h⟩
  rintro ((h | h) | h)
  · cases h.2
  · obtain ⟨-, -, b, p, -, hp⟩ := exists_mem_routesAmong hwf h
    exact absurd (List.cons.inj hp).1 (hs b)
  · exact h

theorem nil_mem_onward (hwf : WellFormedAmong children) :
    [] ∈ ends value ∪ routesAmong children ∪ routesBehind wildcard ↔ value.isSome = true := by
  refine ⟨?_, fun h => .inl (.inl ⟨h, rfl⟩)⟩
  rintro ((h | h) | h)
  · exact h.1
  · obtain ⟨-, -, b, p, -, hp⟩ := exists_mem_routesAmong hwf h
    cases hp
  · obtain ⟨p, hp | hp⟩ := exists_mem_routesBehind h <;> cases hp

theorem after_routesAmong_of_forall_ne (hwf : WellFormedAmong children)
    (h : ∀ child ∈ children, child.label.head? ≠ some b) :
    after (routesAmong children) (.byte b) = ∅ := by
  refine Set.eq_empty_of_forall_notMem fun r hr => ?_
  obtain ⟨child, hchild, a, q, ha, hq⟩ := exists_mem_routesAmong hwf hr
  cases hq
  exact h child hchild ha

/-- Where a wildcard for the rest may begin, a route that ends there makes no difference to longer
ones. -/
theorem hasRoom_ends_union {Q : Set Route} (hr : r ≠ []) :
    HasRoom (ends value ∪ Q) true r ↔ HasRoom Q true r := by
  have hafter : ∀ s, after (ends value ∪ Q) s = after Q s := fun s => by
    ext q
    simp [mem_ends]
  rcases r with _ | ⟨_ | _ | _, r⟩
  · exact absurd rfl hr
  · simp [HasRoom, hafter]
  · simp [HasRoom, hafter, mem_ends]
  · simp [HasRoom, mem_ends]

/-- A wildcard for the rest has room just where there is no wildcard. -/
theorem hasRoom_rest_onward (hchildren : WellFormedAmong children)
    (hwildcard : WellFormedBehind wildcard) :
    HasRoom (ends value ∪ routesAmong children ∪ routesBehind wildcard) true [.rest] ↔
      wildcard = .absent := by
  have hmem : ∀ s q, (∀ b, s ≠ .byte b) →
      (s :: q ∈ ends value ∪ routesAmong children ∪ routesBehind wildcard ↔
        s :: q ∈ routesBehind wildcard) := fun _ _ => wildcard_mem_onward hchildren
  rw [HasRoom, hmem .rest [] fun _ => RouteStep.noConfusion]
  constructor
  · rintro ⟨hrest, hsegment, -⟩
    -- whatever wildcard there is, some route goes on with it
    by_contra hne
    obtain ⟨r, hr⟩ := routesBehind_nonempty wildcard hne hwildcard
    obtain ⟨q, rfl | rfl⟩ := exists_mem_routesBehind hr
    · exact hsegment q ((hmem .segment q fun _ => RouteStep.noConfusion).2 hr)
    · exact hrest hr
  · rintro rfl
    refine ⟨Set.notMem_empty _, fun q hq => ?_, .inl rfl⟩
    exact Set.notMem_empty _ ((hmem .segment q fun _ => RouteStep.noConfusion).1 hq)

mutual

/-- A route can be added to a tree if and only if there is room for it. -/
theorem isSome_insert (v : α) : (tree : RouteTree α) → tree.WellFormed → (r : Route) → Closed r →
    (allowed : Bool) → ((insert v tree r).isSome = true ↔ HasRoom (routes tree) allowed r)
  | .node bytes value children wildcard, hwf, r, hr, allowed => by
    have hchildren : WellFormedAmong children := hwf.2.1
    have hwildcard : WellFormedBehind wildcard := hwf.2.2
    rcases parting bytes r with ⟨front, a, back, q, rfl, rfl, hq, hshared⟩ | ⟨q, rfl, hshared⟩
    -- the label is split where the route leaves it, and both parts go on below what they share
    · have hsplit : (node (a :: back) value children wildcard).WellFormed := hwf
      have hnonempty := routes_nonempty _ hsplit
      rw [← beyond_routes front] at hnonempty
      rw [insert_of_parting hshared, isSome_extend hsplit rfl hq allowed,
        hasRoom_beyond hnonempty allowed allowed, beyond_routes]
    · have hnonempty : (beyond (routes (.node bytes value children wildcard)) bytes).Nonempty := by
        obtain ⟨_, p, hp, rfl⟩ := routes_nonempty _ hwf
        exact ⟨p, p, hp, rfl⟩
      have hnil : [] ∈ ends value ∪ routesAmong children ∪ routesBehind wildcard ↔
          value.isSome = true := nil_mem_onward hchildren
      rw [hasRoom_beyond hnonempty allowed true, beyond_label]
      rw [closed_ofBytes_append] at hr
      rcases q with _ | ⟨b | _ | _, q⟩
      · rw [insert_of_end hshared]
        cases value <;> simp_all [HasRoom]
      · have hafter : after (ends value ∪ routesAmong children ∪ routesBehind wildcard) (.byte b) =
            after (routesAmong children) (.byte b) := Set.ext fun _ => byte_mem_onward
        rw [insert_of_byte hshared, Option.isSome_map, isSome_insertAmong v b children hchildren q hr,
          HasRoom, hafter]
      · have hrest : ∀ q, .rest :: q ∈ ends value ∪ routesAmong children ∪ routesBehind wildcard ↔
            .rest :: q ∈ routesBehind wildcard := fun q =>
          wildcard_mem_onward hchildren fun _ => RouteStep.noConfusion
        have hafter : after (ends value ∪ routesAmong children ∪ routesBehind wildcard) .segment =
            after (routesBehind wildcard) .segment := Set.ext fun _ =>
          wildcard_mem_onward hchildren fun _ => RouteStep.noConfusion
        rw [insert_of_segment hshared, Option.isSome_map,
          isSome_insertSegment v wildcard hwildcard q hr, HasRoom, hafter]
        simp only [hrest]
      · obtain rfl : q = [] := hr
        rw [insert_of_rest hshared, hasRoom_rest_onward hchildren hwildcard]
        cases wildcard <;> simp

theorem isSome_insertAmong (v : α) (b : UInt8) : (children : List (RouteTree α)) →
    WellFormedAmong children → (r : Route) → Closed r → ((insertAmong v b children r).isSome = true ↔
      HasRoom (after (routesAmong children) (.byte b)) (opens (.byte b)) r)
  | [], _, r, _ => by
    simp [insertAmong, routesAmong, isSome_single, opens]
  | child :: children, ⟨hchild, hlabel, hothers, hchildren⟩, r, hr => by
    have hunion : after (routesAmong (child :: children)) (.byte b) =
      after (routes child) (.byte b) ∪ after (routesAmong children) (.byte b) := rfl
    -- the children begin with different bytes, so only one of them can matter to the route
    by_cases hb : child.label.head? = some b
    · have hnone := after_routesAmong_of_forall_ne hchildren (hb ▸ hothers)
      rw [insertAmong, if_pos hb, Option.isSome_map,
        isSome_insert v child hchild (.byte b :: r) hr true, hunion, hnone, Set.union_empty]
      rfl
    · have hnone : after (routes child) (.byte b) = ∅ := by
        obtain ⟨a, ha⟩ := exists_head_label hlabel
        refine after_routes_of_ne ha fun heq => hb ?_
        rw [ha, RouteStep.byte.inj heq]
      rw [insertAmong, if_neg hb, Option.isSome_map, isSome_insertAmong v b children hchildren r hr,
        hunion, hnone, Set.empty_union]

theorem isSome_insertSegment (v : α) : (wildcard : RouteWildcard α) → WellFormedBehind wildcard →
    (r : Route) → Closed r → ((insertSegment v wildcard r).isSome = true ↔
      (∀ q, .rest :: q ∉ routesBehind wildcard) ∧
        HasRoom (after (routesBehind wildcard) .segment) true r)
  | .absent, _, r, _ => by
    cases r with
    | nil => simp [insertSegment, routesBehind, HasRoom]
    | cons s r => simp [insertSegment, routesBehind, isSome_single]
  | .segment value, hvalue, r, _ => by
    have hafter : after (routesBehind (.segment value)) .segment = ends value ∪ ∅ := by
      ext q
      simp [routesBehind]
    rw [hafter]
    cases r with
    | nil => simp [insertSegment, HasRoom, mem_ends, show value.isSome = true from hvalue]
    | cons s r =>
      rw [hasRoom_ends_union (List.cons_ne_nil s r)]
      simp [insertSegment, routesBehind, isSome_single]
  | .segmentThen value next, ⟨hnext, hnil⟩, r, hr => by
    have hafter : after (routesBehind (.segmentThen value next)) .segment =
        ends value ∪ routes next := by
      ext q
      simp [routesBehind]
    rw [hafter]
    cases r with
    | nil => simp [insertSegment, routesBehind, HasRoom, mem_ends, hnil]
    | cons s r =>
      rw [hasRoom_ends_union (List.cons_ne_nil s r)]
      simp [insertSegment, routesBehind, isSome_insert v next hnext (s :: r) hr true]
  | .rest _, _, r, _ => by
    simp [insertSegment, routesBehind]

end

/-! ### What a tree has that a route was added to -/

theorem label_extend {t : RouteTree α} (h : extend v bytes child r = some t) : t.label = bytes := by
  rcases r with _ | ⟨b | _ | _, r⟩
  · cases h
    rfl
  · obtain ⟨next, -, rfl⟩ := Option.map_eq_some_iff.1 h
    rfl
  · cases r with
    | nil =>
      cases h
      rfl
    | cons s r =>
      obtain ⟨next, -, rfl⟩ := Option.map_eq_some_iff.1 h
      rfl
  · cases h
    rfl

theorem label_insert_of_label {t : RouteTree α}
    (hshared : shared bytes (ofBytes bytes ++ r) = bytes.length)
    (h : insert v (.node bytes value children wildcard) (ofBytes bytes ++ r) = some t) :
    t.label = bytes := by
  rcases r with _ | ⟨b | _ | _, r⟩
  · rw [insert_of_end hshared] at h
    split at h
    · cases h
    · cases h
      rfl
  · rw [insert_of_byte hshared] at h
    obtain ⟨grown, -, rfl⟩ := Option.map_eq_some_iff.1 h
    rfl
  · rw [insert_of_segment hshared] at h
    obtain ⟨grown, -, rfl⟩ := Option.map_eq_some_iff.1 h
    rfl
  · rw [insert_of_rest hshared] at h
    split at h
    · cases h
      rfl
    · cases h

/-- A tree still begins with a byte when a route that begins with it was added. -/
theorem label_insert {t : RouteTree α} (h : insert v tree (.byte b :: r) = some t)
    (hb : tree.label.head? = some b) : t.label.head? = some b := by
  obtain ⟨bytes, value, children, wildcard⟩ := tree
  rcases parting bytes (.byte b :: r) with
    ⟨front, a, back, q, rfl, hq, hhead, hshared⟩ | ⟨q, hq, hshared⟩
  · cases front with
    | nil =>
      cases hb
      obtain rfl : .byte b :: r = q := hq
      exact absurd rfl hhead
    | cons c front =>
      rw [hq] at hshared h
      rw [insert_of_parting hshared] at h
      rw [label_extend h]
      exact hb
  · rw [hq] at hshared h
    rw [label_insert_of_label hshared h]
    exact hb

/-- What a route adds behind a label it adds to the tree. -/
theorem routes_grown {q : Route} {value' : Option α} {children' : List (RouteTree α)}
    {wildcard' : RouteWildcard α}
    (h : ends value' ∪ routesAmong children' ∪ routesBehind wildcard' =
      {q} ∪ (ends value ∪ routesAmong children ∪ routesBehind wildcard)) :
    routes (.node bytes value' children' wildcard') =
      {ofBytes bytes ++ q} ∪ routes (.node bytes value children wildcard) := by
  rw [routes, routes, h, Set.image_union, Set.image_singleton]

mutual

/-- A tree that a route was added to has that route besides. -/
theorem insert_eq_some (v : α) : (tree : RouteTree α) → tree.WellFormed → (r : Route) → Closed r →
    (t : RouteTree α) → insert v tree r = some t →
    routes t = {r} ∪ routes tree ∧ t.WellFormed
  | .node bytes value children wildcard, hwf, r, hr, t, h => by
    have hchildren : WellFormedAmong children := hwf.2.1
    have hwildcard : WellFormedBehind wildcard := hwf.2.2
    rcases parting bytes r with ⟨front, a, back, q, rfl, rfl, hq, hshared⟩ | ⟨q, rfl, hshared⟩
    · -- the route leaves the label
      have hsplit : (node (a :: back) value children wildcard).WellFormed := hwf
      rw [closed_ofBytes_append] at hr
      rw [insert_of_parting hshared] at h
      obtain ⟨hroutes, ht, -⟩ := extend_eq_some h hr hsplit rfl hq
      refine ⟨?_, ht⟩
      rw [hroutes, Set.image_union, Set.image_singleton, ← routes_append]
    · rw [closed_ofBytes_append] at hr
      rcases q with _ | ⟨b | _ | _, q⟩
      · rw [insert_of_end hshared] at h
        split at h
        · cases h
        · next hvalue =>
          cases h
          refine ⟨routes_grown ?_, .inl rfl, hchildren, hwildcard⟩
          rw [Option.not_isSome_iff_eq_none.1 hvalue, ends_none, ends_some, Set.empty_union,
            Set.union_assoc]
      · rw [insert_of_byte hshared] at h
        obtain ⟨grown, hgrown, rfl⟩ := Option.map_eq_some_iff.1 h
        obtain ⟨hroutes, hgrown, -⟩ := insertAmong_eq_some v b children hchildren q hr grown hgrown
        have hmem : .byte b :: q ∈ routesAmong grown := hroutes ▸ .inl rfl
        have hne : grown ≠ [] := by
          rintro rfl
          exact hmem
        refine ⟨routes_grown ?_, .inr (.inl hne), hgrown, hwildcard⟩
        rw [hroutes, Set.union_left_comm, Set.union_assoc]
      · rw [insert_of_segment hshared] at h
        obtain ⟨grown, hgrown, rfl⟩ := Option.map_eq_some_iff.1 h
        obtain ⟨hroutes, hgrown⟩ := insertSegment_eq_some v wildcard hwildcard q hr grown hgrown
        have hmem : .segment :: q ∈ routesBehind grown := hroutes ▸ .inl rfl
        have hne : grown ≠ .absent := by
          rintro rfl
          exact hmem
        refine ⟨routes_grown ?_, .inr (.inr hne), hchildren, hgrown⟩
        rw [hroutes, Set.union_left_comm]
      · rw [insert_of_rest hshared] at h
        obtain rfl : q = [] := hr
        split at h
        · cases h
          refine ⟨routes_grown ?_, .inr (.inr nofun), hchildren, trivial⟩
          simp [routesBehind]
        · cases h

theorem insertAmong_eq_some (v : α) (b : UInt8) : (children : List (RouteTree α)) →
    WellFormedAmong children → (r : Route) → Closed r → (grown : List (RouteTree α)) →
    insertAmong v b children r = some grown →
    routesAmong grown = {.byte b :: r} ∪ routesAmong children ∧ WellFormedAmong grown ∧
      ∀ child ∈ grown, child.label.head? = some b ∨
        ∃ other ∈ children, other.label.head? = child.label.head?
  | [], _, r, hr, grown, h => by
    obtain ⟨next, hnext, rfl⟩ := Option.map_eq_some_iff.1 h
    obtain ⟨hroutes, hwf, back, hback⟩ := single_eq_some hnext hr
    have hb : next.label.head? = some b := hback ▸ rfl
    refine ⟨?_, ⟨hwf, label_ne_nil hb, by simp, trivial⟩, by simp [hb]⟩
    simp [routesAmong, hroutes]
  | child :: children, ⟨hchild, hlabel, hothers, hchildren⟩, r, hr, grown, h => by
    by_cases hb : child.label.head? = some b
    · rw [insertAmong, if_pos hb] at h
      obtain ⟨child', hchild', rfl⟩ := Option.map_eq_some_iff.1 h
      obtain ⟨hroutes, hwf⟩ := insert_eq_some v child hchild (.byte b :: r) hr child' hchild'
      have hb' := label_insert hchild' hb
      refine ⟨?_, ⟨hwf, label_ne_nil hb', ?_, hchildren⟩, ?_⟩
      · rw [routesAmong, hroutes, Set.union_assoc]
        rfl
      · rwa [hb', ← hb]
      · intro other hother
        rcases List.mem_cons.1 hother with rfl | hother
        · exact .inl hb'
        · exact .inr ⟨other, List.mem_cons_of_mem _ hother, rfl⟩
    · rw [insertAmong, if_neg hb] at h
      obtain ⟨children', hchildren', rfl⟩ := Option.map_eq_some_iff.1 h
      obtain ⟨hroutes, hwf, hheads⟩ :=
        insertAmong_eq_some v b children hchildren r hr children' hchildren'
      refine ⟨?_, ⟨hchild, hlabel, fun other hother => ?_, hwf⟩, ?_⟩
      · rw [routesAmong, hroutes, Set.union_left_comm]
        rfl
      · rcases hheads other hother with hother | ⟨sibling, hsibling, heq⟩
        · exact fun heq => hb (heq ▸ hother)
        · exact heq ▸ hothers sibling hsibling
      · intro other hother
        rcases List.mem_cons.1 hother with rfl | hother
        · exact .inr ⟨other, List.mem_cons_self, rfl⟩
        · refine (hheads other hother).imp_right ?_
          rintro ⟨sibling, hsibling, heq⟩
          exact ⟨sibling, List.mem_cons_of_mem _ hsibling, heq⟩

theorem insertSegment_eq_some (v : α) : (wildcard : RouteWildcard α) → WellFormedBehind wildcard →
    (r : Route) → Closed r → (grown : RouteWildcard α) → insertSegment v wildcard r = some grown →
    routesBehind grown = {.segment :: r} ∪ routesBehind wildcard ∧ WellFormedBehind grown
  | .absent, _, r, hr, grown, h => by
    cases r with
    | nil =>
      cases h
      exact ⟨by simp [routesBehind], rfl⟩
    | cons s r =>
      obtain ⟨next, hnext, rfl⟩ := Option.map_eq_some_iff.1 h
      obtain ⟨hroutes, hwf, -⟩ := single_eq_some hnext hr
      exact ⟨by simp [routesBehind, hroutes], hwf, by simp [hroutes]⟩
  | .segment value, hvalue, r, hr, grown, h => by
    cases r with
    | nil => simp [insertSegment, show value.isSome = true from hvalue] at h
    | cons s r =>
      obtain ⟨next, hnext, rfl⟩ := Option.map_eq_some_iff.1 h
      obtain ⟨hroutes, hwf, -⟩ := single_eq_some hnext hr
      refine ⟨?_, hwf, by simp [hroutes]⟩
      simp [routesBehind, hroutes, Set.image_insert_eq, Set.union_comm]
  | .segmentThen value next, ⟨hnext, hnil⟩, r, hr, grown, h => by
    cases r with
    | nil =>
      simp only [insertSegment] at h
      split at h
      · cases h
      · next hvalue =>
        cases h
        refine ⟨?_, hnext, hnil⟩
        cases value <;> simp_all [routesBehind, Set.image_insert_eq]
    | cons s r =>
      obtain ⟨next', hnext', rfl⟩ := Option.map_eq_some_iff.1 h
      obtain ⟨hroutes, hwf⟩ := insert_eq_some v next hnext (s :: r) hr next' hnext'
      refine ⟨?_, hwf, by simp [hroutes, hnil]⟩
      simp [routesBehind, hroutes, Set.image_insert_eq]
  | .rest _, _, r, _, grown, h => by
    simp [insertSegment] at h

end

end RouteTree

end Gateway
