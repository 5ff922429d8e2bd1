import Gateway.Proofs.Graph.Sight
import Mathlib.Data.List.Chain

/-!
# Gateway.Proofs.Graph.Acceptance — which producers make a graph

A walk gives up only at a node that is on its path already. Along the path each node depends on the
next, so that what is cut out of it is a circle; where there is none the walk comes to its end, and
where there is one no order exists for it to find. Hence producers make a graph exactly when their
names differ, none refers to itself before its call and their references go in no circle, and a
refusal shows which of these fails first.

A decision is right if it says yes just when it should, and each half has its own reason here. A graph
that is made has an order, and along an order nothing goes in a circle. A refusal carries a circle, and
with a circle there is no order. Neither half is about the walk as a whole: `Trail` says where a walk is
at any moment, and its lemmas what one step makes of that.

That the reported circle is one is proved and not only that there is one. `Refused` asks for more than
a cycle of names: two producers at least, no two of them the same, each of which refers to the next. A
walk that reported its whole path, with the way to the circle in front, would name producers that are
not to blame, and would not satisfy this.

Nodes are numbers and references are names, and it is the distinctness of names that makes these two
the same (`edge_iff`). So this is looked at first, by the program as well as here, and what is said of
references to oneself and of circles can take it for granted.
-/

set_option autoImplicit false

namespace Gateway

namespace Deps

variable {deps : Deps}

/-- At least two nodes, no two of them the same, each of which depends on the next and the last on
the first, which is listed at both ends. -/
inductive Circle (deps : Deps) : List Nat → Prop
  | intro {first : Nat} {rest : List Nat} (inside : ∀ i ∈ first :: rest, i < deps.length)
      (others : rest ≠ []) (distinct : (first :: rest).Nodup)
      (chain : (first :: (rest ++ [first])).IsChain deps.Edge) :
      Circle deps (first :: (rest ++ [first]))

/-- Where a walk is: on a path, innermost node first, along which each node depends on the one
before, with the dependencies of the innermost one to walk to. Every node is free, on the path or
finished. -/
structure Trail (deps : Deps) (free path done ds : List Nat) : Prop where
  freeNodup : free.Nodup
  doneNodup : done.Nodup
  ordered : deps.Ordered done
  pathNodup : path.Nodup
  apart : ∀ i ∈ path, i ∉ free
  chain : path.IsChain fun d i => deps.Edge i d
  next : ∀ i ∈ path.head?, ds ⊆ deps.of i
  nodes : ∀ i ∈ path ++ ds, i < deps.length
  all : ∀ i < deps.length, i ∈ free ∨ i ∈ path ∨ i ∈ done

theorem closeCycle_append {since before : List Nat} {d : Nat} (h : d ∉ since) :
    closeCycle (since ++ d :: before) d = d :: (since.reverse ++ [d]) := by
  have hall : ∀ i ∈ since, decide (i ≠ d) = true := fun i hi =>
    decide_eq_true fun heq => h (heq ▸ hi)
  rw [closeCycle, List.takeWhile_append_of_pos hall, List.takeWhile_cons_of_neg (by simp),
    List.append_nil]

namespace Trail

variable {free path done ds : List Nat} {d : Nat}

theorem start (deps : Deps) :
    deps.Trail (List.range deps.length) [] [] (List.range deps.length) where
  freeNodup := List.nodup_range
  doneNodup := List.nodup_nil
  ordered := trivial
  pathNodup := List.nodup_nil
  apart _ hi := absurd hi List.not_mem_nil
  chain := .nil
  next _ hi := by cases hi
  nodes _ hi := List.mem_range.1 hi
  all _ hi := .inl (List.mem_range.2 hi)

theorem skip (h : deps.Trail free path done (d :: ds)) : deps.Trail free path done ds :=
  { h with
    next := fun i hi => List.Subset.trans (List.subset_cons_self d ds) (h.next i hi)
    nodes := fun i hi => h.nodes i
      (List.mem_append.2 ((List.mem_append.1 hi).imp_right (List.mem_cons_of_mem d))) }

/-- The walk goes on to a dependency that is free. -/
theorem enter (h : deps.Trail free path done (d :: ds)) (hrange : deps.InRange) (hd : d ∈ free) :
    deps.Trail (free.erase d) (d :: path) done (deps.of d) where
  freeNodup := h.freeNodup.erase d
  doneNodup := h.doneNodup
  ordered := h.ordered
  pathNodup := List.nodup_cons.2 ⟨fun hmem => h.apart d hmem hd, h.pathNodup⟩
  apart i hi hfree := by
    rcases List.mem_cons.1 hi with rfl | hi
    · exact ((h.freeNodup.mem_erase_iff).1 hfree).1 rfl
    · exact h.apart i hi (List.mem_of_mem_erase hfree)
  chain := List.isChain_cons.2 ⟨fun i hi => h.next i hi List.mem_cons_self, h.chain⟩
  next i hi := by
    cases hi
    exact List.Subset.refl _
  nodes i hi := by
    rcases List.mem_append.1 hi with hi | hi
    · rcases List.mem_cons.1 hi with rfl | hi
      · exact h.nodes i (List.mem_append_right _ List.mem_cons_self)
      · exact h.nodes i (List.mem_append_left _ hi)
    · exact hrange d i hi
  all i hi := by
    -- every node is free, on the path, or done, and this one is put on the path
    by_cases heq : i = d
    · exact .inr (.inl (heq ▸ List.mem_cons_self))
    · exact (h.all i hi).imp (List.mem_erase_of_ne heq).2
        (Or.imp_left (List.mem_cons_of_mem d))

/-- The walk comes back from it. -/
theorem leave (h : deps.Trail free path done (d :: ds)) (hrange : deps.InRange) (hd : d ∈ free)
    (hnew : d ∉ done) {done' : List Nat}
    (hvisit : deps.visit (free.erase d) (d :: path) done (deps.of d) = .ok done') :
    deps.Trail free path (d :: done') ds := by
  have hinner := h.enter hrange hd
  obtain ⟨hordered, hnodup, hsub, hdeps, hfrom⟩ :=
    visit_eq_ok hvisit hinner.freeNodup hinner.doneNodup hinner.ordered
  -- the walk beneath finishes nodes that it was free to enter, and this one was on its path
  have hfresh : d ∉ done' := fun hmem => by
    rcases hfrom d hmem with hmem | hmem
    · exact hnew hmem
    · exact hinner.apart d List.mem_cons_self hmem
  exact { h.skip with
    doneNodup := List.nodup_cons.2 ⟨hfresh, hnodup⟩
    ordered := ⟨hdeps, hordered⟩
    all := fun i hi => (h.all i hi).imp_right
      (Or.imp_right fun hmem => List.mem_cons_of_mem d (hsub hmem)) }

/-- A node that is neither free nor finished is on the path, and closes a circle there. -/
theorem circle (h : deps.Trail free path done (d :: ds)) (hself : ∀ i, ¬ deps.Edge i i)
    (hdone : d ∉ done) (hfree : d ∉ free) : deps.Circle (closeCycle path d) := by
  have hpath : d ∈ path :=
    ((h.all d (h.nodes d (List.mem_append_right _ List.mem_cons_self))).resolve_left
      hfree).resolve_right hdone
  -- where the walk has been since it came to `d`, and before
  obtain ⟨since, before, rfl⟩ := List.append_of_mem hpath
  have hsub : (since ++ [d]).Sublist (since ++ d :: before) :=
    List.append_cons since d before ▸ List.sublist_append_left _ _
  have hnodup : (since ++ [d]).Nodup := h.pathNodup.sublist hsub
  have hnew : d ∉ since := fun hmem =>
    List.disjoint_of_nodup_append hnodup hmem (List.mem_singleton_self d)
  have hchain : (since ++ [d]).IsChain fun d i => deps.Edge i d :=
    (List.append_cons since d before ▸ h.chain).left_of_append
  have hlast : ∀ i ∈ (since ++ [d]).head?, d ∈ deps.of i := fun i hi =>
    h.next i (by rwa [List.append_cons, List.head?_append_of_ne_nil _ (by simp)]) List.mem_cons_self
  have hreverse : (since ++ [d]).reverse = d :: since.reverse := List.reverse_append
  have hback : (d :: since.reverse).IsChain deps.Edge := hreverse ▸ List.isChain_reverse.2 hchain
  rw [closeCycle_append hnew]
  refine .intro (fun i hi => ?_) (fun hnil => ?_) (hreverse ▸ List.nodup_reverse.2 hnodup) ?_
  · rw [← hreverse, List.mem_reverse] at hi
    exact h.nodes i (List.mem_append_left _ (hsub.subset hi))
  · cases List.reverse_eq_nil_iff.1 hnil
    exact hself d (hlast d rfl)
  · rw [← List.cons_append]
    refine List.isChain_append.2 ⟨hback, .singleton d, fun i hi j hj => ?_⟩
    cases hj
    rw [← hreverse, List.getLast?_reverse] at hi
    exact hlast i hi

end Trail

/-- A walk that finds no order finds a circle. -/
theorem circle_of_visit {free path done ds cycle : List Nat}
    (h : deps.visit free path done ds = .error cycle) (htrail : deps.Trail free path done ds)
    (hrange : deps.InRange) (hself : ∀ i, ¬ deps.Edge i i) : deps.Circle cycle := by
  fun_induction visit deps free path done ds with
  | case1 => cases h
  | case2 free path done d ds hmem ih => exact ih h htrail.skip
  | case3 free path done d ds hmem hd done' hvisit ih₁ ih₂ =>
    exact ih₂ h (htrail.leave hrange hd hmem hvisit)
  | case4 free path done d ds hmem hd cycle' hvisit ih =>
    cases h
    exact ih hvisit (htrail.enter hrange hd)
  | case5 free path done d ds hmem hd =>
    cases h
    exact htrail.circle hself hmem hd

theorem circle_of_finishOrder {cycle : List Nat} (h : deps.finishOrder = .error cycle)
    (hrange : deps.InRange) (hself : ∀ i, ¬ deps.Edge i i) : deps.Circle cycle := by
  unfold finishOrder at h
  cases hvisit : deps.visit (.range deps.length) [] [] (.range deps.length) with
  | ok out => simp only [hvisit] at h; cases h
  | error found =>
    simp only [hvisit] at h
    cases h
    exact circle_of_visit hvisit (.start deps) hrange hself

/-- From a node of a circle one comes back to it. -/
theorem Circle.below {cycle : List Nat} (h : deps.Circle cycle) : ∃ i, deps.Below i i := by
  obtain @⟨first, rest, -, others, -, chain⟩ := h
  obtain ⟨second, more, rfl⟩ := List.exists_cons_of_ne_nil others
  obtain ⟨hedge, hmore⟩ := List.isChain_cons_cons.1 chain
  refine ⟨first, .head' hedge ?_⟩
  exact List.relationReflTransGen_of_exists_isChain_cons _ hmore
    (List.getLast_append_singleton (second :: more))

end Deps

/-! ## Producers -/

/-- The producer under the name that it goes by. -/
def Producer.named (p : Producer) : Producer := { p with name := normalName p.name }

namespace Graph

/-- The producer in one place refers to the one in another. -/
def Refers (ps : List Producer) (i j : Nat) : Prop :=
  i ≠ j ∧ ∃ p q, ps[i]? = some p ∧ ps[j]? = some q ∧ p.RefersTo q.name

/-- Names differ, no producer reads its own result before its call, and references go in no
circle. -/
structure Acceptable (ps : List Producer) : Prop where
  names : (ps.map (·.name)).Nodup
  self : ∀ p ∈ ps, ¬ p.ReadsItself
  acyclic : ∀ i, ¬ Relation.TransGen (Refers ps) i i

/-- What is wrong with producers that are refused, as the refusal tells it. Names are looked at
first, then each producer by itself, and then all of them together. -/
inductive Refused (ps : List Producer) : GraphError → Prop
  | duplicateName {i j : Nat} {p q : Producer} (order : i < j) (first : ps[i]? = some p)
      (second : ps[j]? = some q) (same : p.name = q.name) : Refused ps (.duplicateName q.name)
  | selfReference {p : Producer} (names : (ps.map (·.name)).Nodup) (mem : p ∈ ps)
      (reads : p.ReadsItself) : Refused ps (.selfReference p.name)
  /-- At least two producers with different names, each of which refers to the next and the last to
  the first, which is named at both ends. -/
  | cycle {first : Producer} {rest : List Producer} (names : (ps.map (·.name)).Nodup)
      (self : ∀ p ∈ ps, ¬ p.ReadsItself) (mem : first :: rest ⊆ ps) (others : rest ≠ [])
      (distinct : ((first :: rest).map (·.name)).Nodup)
      (chain : (first :: (rest ++ [first])).IsChain fun p q => p.RefersTo q.name) :
      Refused ps (.cycle ((first :: (rest ++ [first])).map (·.name)))

variable {declared : List Producer}

theorem getElem?_numbered (declared : List Producer) (i : Nat) :
    (numbered declared)[i]? = declared[i]?.map fun p => { p with id := i } := by
  rw [numbered, List.getElem?_map, List.getElem?_zipIdx, Nat.zero_add]
  cases declared[i]? with
  | none => rfl
  | some p => rfl

theorem names_numbered (declared : List Producer) :
    (numbered declared).map (·.name) = declared.map (·.name) := by
  refine List.ext_getElem? fun i => ?_
  rw [List.getElem?_map, List.getElem?_map, getElem?_numbered, Option.map_map]
  rfl

theorem exists_of_duplicate? {seen names : List String} {name : String}
    (h : duplicate? seen names = some name) :
    ∃ j : Nat, names[j]? = some name ∧ (name ∈ seen ∨ ∃ i < j, names[i]? = some name) := by
  induction names generalizing seen with
  | nil => cases h
  | cons first rest ih =>
    rw [duplicate?] at h
    split at h
    · next hseen =>
      cases h
      exact ⟨0, rfl, .inl (List.contains_iff_mem.1 hseen)⟩
    · obtain ⟨j, hj, hbefore⟩ := ih h
      refine ⟨j + 1, hj, ?_⟩
      rcases hbefore with hmem | ⟨i, hlt, hi⟩
      · rcases List.mem_cons.1 hmem with rfl | hmem
        · exact .inr ⟨0, Nat.succ_pos j, rfl⟩
        · exact .inl hmem
      · exact .inr ⟨i + 1, Nat.succ_lt_succ hlt, hi⟩

/-- What `build` takes nodes to depend on. -/
theorem of_dependencies (declared : List Producer) {i : Nat} {p : Producer}
    (hp : declared[i]? = some p) {d : Nat} :
    d ∈ Deps.of ((numbered declared).map (dependencies (numbered declared))) i ↔
      ∃ q, declared[d]? = some q ∧ q.name ∈ p.requestReferences ++ p.responseReferences := by
  rw [Deps.of, List.getElem?_map, getElem?_numbered, hp]
  refine mem_dependencies.trans ⟨?_, ?_⟩
  · rintro ⟨q, hq, rfl, hname⟩
    obtain ⟨j, hj⟩ := List.getElem?_of_mem hq
    rw [id_of_numbered hj]
    rw [getElem?_numbered] at hj
    obtain ⟨q', hq', rfl⟩ := Option.map_eq_some_iff.1 hj
    exact ⟨q', hq', hname⟩
  · rintro ⟨q, hq, hname⟩
    refine ⟨{ q with id := d }, List.mem_of_getElem? (i := d) ?_, rfl, hname⟩
    rw [getElem?_numbered, hq]
    rfl

theorem readsItself_iff {p : Producer} : p.ReadsItself ↔ p.name ∈ p.requestReferences :=
  mem_references.symm

/-- A name has one place. -/
theorem place_unique (hnames : (declared.map (·.name)).Nodup) {i j : Nat} {p q : Producer}
    (hp : declared[i]? = some p) (hq : declared[j]? = some q) (heq : p.name = q.name) : i = j := by
  have hi : (declared.map (·.name))[i]? = some p.name := by rw [List.getElem?_map, hp]; rfl
  have hj : (declared.map (·.name))[j]? = some q.name := by rw [List.getElem?_map, hq]; rfl
  exact (List.getElem?_inj (List.getElem?_eq_some_iff.1 hi).1 hnames).1 (by rw [hi, hj, heq])

/-- Producers whose names differ and that do not read themselves depend on those they refer to. -/
theorem edge_iff (hnames : (declared.map (·.name)).Nodup)
    (hself : ∀ p ∈ declared, ¬ p.ReadsItself) {i d : Nat} :
    Deps.Edge ((numbered declared).map (dependencies (numbered declared))) i d ↔
      Refers declared i d := by
  constructor
  · intro hedge
    have hi := Deps.lt_length_of_mem hedge
    rw [List.length_map, numbered, List.length_map, List.length_zipIdx] at hi
    have hp := List.getElem?_eq_getElem hi
    obtain ⟨q, hq, hname⟩ := (of_dependencies declared hp).1 hedge
    refine ⟨?_, _, q, hp, hq, Producer.refersTo_of_mem_references hname⟩
    -- a producer does not read itself before its call, and reading its own response is no reference
    rintro rfl
    cases hp.symm.trans hq
    rcases List.mem_append.1 hname with hname | hname
    · exact hself _ (List.getElem_mem hi) (readsItself_iff.2 hname)
    · exact of_decide_eq_true (List.mem_filter.1 hname).2 rfl
  · rintro ⟨hne, p, q, hp, hq, hrefers⟩
    refine (of_dependencies declared hp).2 ⟨q, hq, ?_⟩
    exact Producer.mem_references_of_refersTo hrefers fun heq =>
      hne (place_unique hnames hp hq heq.symm)

/-- The names of nodes are those of the producers in these places. -/
theorem namesOf_numbered {found : Nat → Producer} {ids : List Nat}
    (h : ∀ i ∈ ids, declared[i]? = some (found i)) :
    namesOf (numbered declared) ids = (ids.map found).map (·.name) := by
  induction ids with
  | nil => rfl
  | cons i rest ih =>
    have hi : (numbered declared)[i]?.map (·.name) = some (found i).name := by
      rw [getElem?_numbered, h i List.mem_cons_self]
      rfl
    rw [namesOf, List.filterMap_cons, hi, ← namesOf, ih fun j hj => h j (List.mem_cons_of_mem i hj)]
    rfl

theorem below_iff (hnames : (declared.map (·.name)).Nodup)
    (hself : ∀ p ∈ declared, ¬ p.ReadsItself) {i j : Nat} :
    Deps.Below ((numbered declared).map (dependencies (numbered declared))) i j ↔
      Relation.TransGen (Refers declared) i j := by
  have heq : Deps.Edge ((numbered declared).map (dependencies (numbered declared)))
      = Refers declared :=
    funext fun _ => funext fun _ => propext (edge_iff hnames hself)
  rw [Deps.Below, heq]

/-- A circle of nodes is a circle of producers. -/
theorem refused_of_circle (hnames : (declared.map (·.name)).Nodup)
    (hself : ∀ p ∈ declared, ¬ p.ReadsItself) {cycle : List Nat}
    (h : Deps.Circle ((numbered declared).map (dependencies (numbered declared))) cycle) :
    Refused declared (.cycle (namesOf (numbered declared) cycle)) := by
  obtain @⟨first, rest, inside, others, distinct, chain⟩ := h
  simp only [List.length_map, numbered, List.length_zipIdx] at inside
  -- the producer in each place, and any one where there is no place
  have hpos : 0 < declared.length := Nat.zero_lt_of_lt (inside first List.mem_cons_self)
  let found : Nat → Producer := fun i => declared[i]?.getD declared[0]
  have hfound : ∀ i ∈ first :: rest, declared[i]? = some (found i) := fun i hi => by
    rw [List.getElem?_eq_getElem (inside i hi)]
    simp only [found, List.getElem?_eq_getElem (inside i hi), Option.getD_some]
  have hboth : ∀ i ∈ first :: (rest ++ [first]), i ∈ first :: rest := fun i hi => by
    simpa [or_comm] using hi
  have hrefers : (first :: (rest ++ [first])).IsChain
      fun i j => (found i).RefersTo (found j).name := by
    refine chain.imp_of_mem_imp fun i j hi hj hedge => ?_
    obtain ⟨-, p, q, hp, hq, hrefers⟩ := (edge_iff hnames hself).1 hedge
    cases hp.symm.trans (hfound i (hboth i hi))
    cases hq.symm.trans (hfound j (hboth j hj))
    exact hrefers
  have hdistinct : ((first :: rest).map fun i => (found i).name).Nodup :=
    distinct.map_on fun i hi j hj heq => place_unique hnames (hfound i hi) (hfound j hj) heq
  rw [namesOf_numbered fun i hi => hfound i (hboth i hi), List.map_cons, List.map_append]
  refine .cycle hnames hself (fun p hp => ?_) (fun hnil => others (List.map_eq_nil_iff.1 hnil)) ?_ ?_
  · rw [← List.map_cons] at hp
    obtain ⟨i, hi, rfl⟩ := List.mem_map.1 hp
    exact List.mem_of_getElem? (hfound i hi)
  · rw [← List.map_cons, List.map_map]
    exact hdistinct
  · have hmap := (List.isChain_map (R := fun p q => Producer.RefersTo p q.name) found).2 hrefers
    rwa [List.map_cons, List.map_append] at hmap

theorem exists_declared {p : Producer} (h : p ∈ numbered declared) :
    ∃ q ∈ declared, ∃ i, p = { q with id := i } := by
  obtain ⟨i, hi⟩ := List.getElem?_of_mem h
  rw [getElem?_numbered] at hi
  obtain ⟨q, hq, rfl⟩ := Option.map_eq_some_iff.1 hi
  exact ⟨q, List.mem_of_getElem? hq, i, rfl⟩

theorem not_readsItself (h : selfReference? (numbered declared) = none) :
    ∀ p ∈ declared, ¬ p.ReadsItself := by
  intro p hp hreads
  obtain ⟨i, hi⟩ := List.getElem?_of_mem hp
  have hmem : { p with id := i } ∈ numbered declared :=
    List.mem_of_getElem? (i := i) (by rw [getElem?_numbered, hi]; rfl)
  exact not_mem_of_selfReference? h hmem (readsItself_iff.1 hreads)

theorem names_nodup (h : duplicate? [] ((numbered declared).map (·.name)) = none) :
    (declared.map (·.name)).Nodup :=
  names_numbered declared ▸ (nodup_of_duplicate? h).1

/-- The dependencies that a walk finds a circle in hold one. -/
theorem circle_of_build (hnames : (declared.map (·.name)).Nodup)
    (hself : ∀ p ∈ declared, ¬ p.ReadsItself) {cycle : List Nat}
    (h : Deps.finishOrder ((numbered declared).map (dependencies (numbered declared)))
      = .error cycle) :
    Deps.Circle ((numbered declared).map (dependencies (numbered declared))) cycle := by
  refine Deps.circle_of_finishOrder h (fun i d hedge => ?_) fun i hedge => ?_
  · obtain ⟨-, p, q, -, hq, -⟩ := (edge_iff hnames hself).1 hedge
    simpa [numbered] using (List.getElem?_eq_some_iff.1 hq).1
  · exact ((edge_iff hnames hself).1 hedge).1 rfl

theorem build_eq_error {e : GraphError} (h : build declared = .error e) :
    (∃ name, e = .duplicateName name ∧
      duplicate? [] ((numbered declared).map (·.name)) = some name) ∨
    duplicate? [] ((numbered declared).map (·.name)) = none ∧
      ((∃ name, e = .selfReference name ∧ selfReference? (numbered declared) = some name) ∨
      selfReference? (numbered declared) = none ∧
        ∃ cycle, e = .cycle (namesOf (numbered declared) cycle) ∧
          Deps.finishOrder ((numbered declared).map (dependencies (numbered declared)))
            = .error cycle) := by
  unfold build at h
  simp only at h
  split at h
  · next hduplicate =>
    cases h
    exact .inl ⟨_, rfl, hduplicate⟩
  · next hduplicate hself =>
    cases h
    exact .inr ⟨hduplicate, .inl ⟨_, rfl, hself⟩⟩
  · next hduplicate hself =>
    split at h
    · next hcycle =>
      cases h
      exact .inr ⟨hduplicate, .inr ⟨hself, _, rfl, hcycle⟩⟩
    · cases h

/-- A refusal says what is wrong. -/
theorem refused_of_build {e : GraphError} (h : build declared = .error e) :
    Refused declared e := by
  rcases build_eq_error h with
    ⟨name, rfl, hduplicate⟩ | ⟨hduplicate, ⟨name, rfl, hself⟩ | ⟨hself, cycle, rfl, hcycle⟩⟩
  · rw [names_numbered] at hduplicate
    obtain ⟨j, hj, hbefore⟩ := exists_of_duplicate? hduplicate
    obtain ⟨i, hlt, hi⟩ := hbefore.resolve_left List.not_mem_nil
    rw [List.getElem?_map] at hi hj
    obtain ⟨p, hp, rfl⟩ := Option.map_eq_some_iff.1 hi
    obtain ⟨q, hq, hname⟩ := Option.map_eq_some_iff.1 hj
    rw [← hname]
    exact .duplicateName hlt hp hq hname.symm
  · obtain ⟨p, hp, rfl⟩ := Option.map_eq_some_iff.1 hself
    have hreads : p.requestReferences.contains p.name = true := by
      simpa using List.find?_some hp
    obtain ⟨q, hq, i, rfl⟩ := exists_declared (List.mem_of_find?_eq_some hp)
    have hself : q.ReadsItself := readsItself_iff.2 (List.contains_iff_mem.1 hreads)
    show Refused declared (.selfReference q.name)
    exact .selfReference (names_nodup hduplicate) hq hself
  · have hnames := names_nodup hduplicate
    have hreads := not_readsItself hself
    exact refused_of_circle hnames hreads (circle_of_build hnames hreads hcycle)

theorem acceptable_of_build {g : Graph} (h : build declared = .ok g) : Acceptable declared := by
  obtain ⟨hproducers, hduplicate, hself, hdeps, order, horder, -⟩ := build_eq_ok h
  obtain ⟨-, rank, hrank, -⟩ := Deps.exists_ranked horder
  rw [hproducers] at hself hdeps hduplicate
  have hnames := names_nodup hduplicate
  refine ⟨hnames, not_readsItself hself, fun i hcircle => ?_⟩
  have hbelow : g.deps.Below i i := hdeps ▸ (below_iff hnames (not_readsItself hself)).2 hcircle
  exact Nat.lt_irrefl _ (hrank.lt_of_below hbelow)

theorem exists_of_acceptable (h : Acceptable declared) : ∃ g, build declared = .ok g := by
  cases hbuild : build declared with
  | ok g => exact ⟨g, rfl⟩
  | error e =>
    -- nothing that a refusal finds is there
    exfalso
    rcases build_eq_error hbuild with ⟨name, rfl, -⟩ | ⟨-, ⟨name, rfl, -⟩ | ⟨-, cycle, rfl, hcycle⟩⟩
    · cases refused_of_build hbuild with
      | duplicateName order first second same =>
        exact Nat.ne_of_lt order (place_unique h.names first second same)
    · cases refused_of_build hbuild with
      | selfReference _ mem reads => exact h.self _ mem reads
    · obtain ⟨i, hbelow⟩ := (circle_of_build h.names h.self hcycle).below
      exact h.acyclic i ((below_iff h.names h.self).1 hbelow)

/-- Producers make a graph if their names differ, none reads itself before its call and references go
in no circle; if they make none, the refusal shows what stands against it. Names count as they are
gone by: without the white space around them, and none as a name too. -/
theorem build_decides (declared : List Producer) :
    ((∃ g, build (declared.map Producer.named) = .ok g) ↔
      Acceptable (declared.map Producer.named)) ∧
    ∀ e, build (declared.map Producer.named) = .error e →
      Refused (declared.map Producer.named) e :=
  ⟨⟨fun ⟨_, h⟩ => acceptable_of_build h, exists_of_acceptable⟩, fun _ => refused_of_build⟩

/-- Two producers that refer to each other, one of them with white space around its name. -/
theorem build_decides_of_mutual :
    let ps := [Producer.reading 0 " first " "second", .reading 1 "second" "first"]
    build (ps.map Producer.named) = .error (.cycle ["first", "second", "first"]) ∧
      Refused (ps.map Producer.named) (.cycle ["first", "second", "first"]) := by
  intro ps
  have hfirst : Producer.normalName " first " = "first" := by decide +kernel
  have hsecond : Producer.normalName "second" = "second" := by decide +kernel
  have hnamed : ps.map Producer.named =
      [{ Producer.reading 0 " first " "second" with name := "first" },
        .reading 1 "second" "first"] := by
    simp only [ps, List.map, Producer.named, Producer.reading, Producer.plain, hfirst, hsecond]
  have hbuild : build (ps.map Producer.named) = .error (.cycle ["first", "second", "first"]) := by
    rw [hnamed]
    cbv
  exact ⟨hbuild, (build_decides ps).2 _ hbuild⟩

end Graph

end Gateway
