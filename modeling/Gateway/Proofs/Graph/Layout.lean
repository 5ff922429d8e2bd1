import Gateway.Graph.Basic
import Gateway.Proofs.Graph.Draft
import Gateway.Proofs.Graph.Reduction

/-!
# Gateway.Proofs.Graph.Layout — what an accepted graph looks like

A graph that was built is *sound*: a producer's id is its place, no two producers share a name, a
producer depends on those others that it refers to, and it does so without a circle. Its nodes are
those of a right draft in which the producers that no other depends on were laid out, and the root
above these.

There are two ways to look at the nodes, and both are taken further on. As nodes they have addresses,
which tell how often a thing occurs; that is what the shape of a graph is about. A run only sees the
plan that unfolds from the root, and this obeys one equation: the plan of a producer is its call
behind the plans of those that it cannot do without, and the whole has one branch for each producer
that no other depends on. Whoever reasons about runs starts from the equation and need not know that
there are nodes.
-/

set_option autoImplicit false

namespace Gateway

namespace Graph

/-- The plan of a producer, given those of the producers it depends on. -/
def planAfter (p : Producer) : List Plan → Plan
  | [] => .call p
  | [dep] => .sequence [dep, .call p]
  | deps => .sequence [.parallel deps, .call p]

/-- The nodes of a graph are those of a draft and the root. -/
structure Drafted (g : Graph) (d : Draft) (tops : List Nat) : Prop where
  right : d.Right g.producers g.deps.reduce
  found : g.deps.terminals.map d.find? = tops.map some
  nodes : g.nodes = d.nodes ++ [.parallel tops]
  root : g.root = d.nodes.length

/-- The graph is what declared producers and their references make it. -/
structure Sound (g : Graph) : Prop where
  id : ∀ {i : Nat} {p : Producer}, g.producers[i]? = some p → p.id = i
  names : (g.producers.map (·.name)).Nodup
  length : g.deps.length = g.producers.length
  deps : ∀ {p q : Producer}, p ∈ g.producers → q ∈ g.producers →
    (q.id ∈ g.deps.of p.id ↔ q.name ∈ p.requestReferences ++ p.responseReferences)
  self : ∀ p ∈ g.producers, p.name ∉ p.requestReferences
  range : g.deps.InRange
  ranked : ∃ rank bound, g.deps.Ranked rank ∧ ∀ i, rank i ≤ bound
  drafted : ∃ d tops, g.Drafted d tops

/-! ## Names and ids -/

theorem nodup_of_duplicate? {seen names : List String} (h : duplicate? seen names = none) :
    names.Nodup ∧ ∀ name ∈ names, name ∉ seen := by
  induction names generalizing seen with
  | nil => exact ⟨List.nodup_nil, fun _ hmem => absurd hmem List.not_mem_nil⟩
  | cons name rest ih =>
    rw [duplicate?] at h
    split at h
    · cases h
    · next hnew =>
      obtain ⟨hnodup, hrest⟩ := ih h
      refine ⟨List.nodup_cons.2 ⟨fun hmem => hrest name hmem List.mem_cons_self, hnodup⟩, ?_⟩
      intro other hother
      rcases List.mem_cons.1 hother with rfl | hother
      · simpa using hnew
      · exact fun hseen => hrest other hother (List.mem_cons_of_mem name hseen)

theorem id_of_numbered {declared : List Producer} {i : Nat} {p : Producer}
    (h : (numbered declared)[i]? = some p) : p.id = i := by
  unfold numbered at h
  rw [List.getElem?_map, List.getElem?_zipIdx] at h
  obtain ⟨⟨q, j⟩, hq, rfl⟩ := Option.map_eq_some_iff.1 h
  obtain ⟨q', -, heq⟩ := Option.map_eq_some_iff.1 hq
  cases heq
  exact Nat.zero_add i

theorem not_mem_of_selfReference? {ps : List Producer} (h : selfReference? ps = none)
    {p : Producer} (hp : p ∈ ps) : p.name ∉ p.requestReferences := by
  have hnone := List.find?_eq_none.1 (Option.map_eq_none_iff.1 h) p hp
  simpa using hnone

theorem mem_dependencies {ps : List Producer} {p : Producer} {d : Nat} :
    d ∈ dependencies ps p ↔
      ∃ q ∈ ps, q.id = d ∧ q.name ∈ p.requestReferences ++ p.responseReferences := by
  unfold dependencies
  rw [List.mem_map]
  constructor
  · rintro ⟨q, hq, rfl⟩
    obtain ⟨hmem, hname⟩ := List.mem_filter.1 hq
    exact ⟨q, hmem, rfl, List.contains_iff_mem.1 hname⟩
  · rintro ⟨q, hmem, rfl, hname⟩
    exact ⟨q, List.mem_filter.2 ⟨hmem, List.contains_iff_mem.2 hname⟩, rfl⟩

/-! ## Laying out the terminals -/

/-- What is come to from a terminal is a producer. -/
theorem lt_of_terminal {deps : Deps} (hrange : deps.InRange) {t j : Nat} (ht : t ∈ deps.terminals)
    (htj : Relation.ReflTransGen deps.reduce.Edge t j) : j < deps.length := by
  cases htj with
  | refl => exact List.mem_range.1 (List.mem_filter.1 ht).1
  | tail _ hedge => exact hrange _ _ (Deps.mem_of_mem_reduce hedge)

/-- The terminals of dependencies without a circle are laid out rightly. -/
theorem right_of_lay {ps : List Producer} {deps : Deps} (hlength : deps.length = ps.length)
    (hrange : deps.InRange) (hacyclic : deps.reduce.Acyclic) {tops : List Nat} {d : Draft}
    (hlay : Draft.lay ps deps.reduce (List.range ps.length) {} deps.terminals = (tops, d)) :
    d.Right ps deps.reduce ∧ deps.terminals.map d.find? = tops.map some := by
  have hlaid := Draft.lay_right hacyclic (Draft.right_empty ps deps.reduce) fun t ht j htj => by
    have hlt : j < ps.length := hlength ▸ lt_of_terminal hrange ht htj
    exact ⟨List.mem_range.2 hlt, hlt⟩
  rw [hlay] at hlaid
  exact ⟨hlaid.right, hlaid.found⟩

theorem build_eq_ok {declared : List Producer} {g : Graph} (h : build declared = .ok g) :
    g.producers = numbered declared ∧
    duplicate? [] (g.producers.map (·.name)) = none ∧ selfReference? g.producers = none ∧
    g.deps = g.producers.map (dependencies g.producers) ∧
    ∃ order, g.deps.finishOrder = .ok order ∧
      ∃ d tops, Draft.lay g.producers g.deps.reduce (List.range g.producers.length) {}
        g.deps.terminals = (tops, d) ∧
        g.nodes = d.nodes ++ [.parallel tops] ∧ g.root = d.nodes.length := by
  unfold build at h
  simp only at h
  split at h
  · cases h
  · cases h
  · next hduplicate hself =>
    split at h
    · cases h
    · next order horder =>
      cases h
      exact ⟨rfl, hduplicate, hself, rfl, order, horder, _, _, rfl, rfl, rfl⟩

/-- A graph that is built is sound. -/
theorem sound_of_build {declared : List Producer} {g : Graph} (h : build declared = .ok g) :
    g.Sound := by
  obtain ⟨hproducers, hduplicate, hself, hdeps, order, horder, d, tops, hlay, hnodes, hroot⟩ :=
    build_eq_ok h
  obtain ⟨hrange, rank, hrank, hbound⟩ := Deps.exists_ranked horder
  have hlength : g.deps.length = g.producers.length := by rw [hdeps, List.length_map]
  have hid : ∀ {i : Nat} {p : Producer}, g.producers[i]? = some p → p.id = i := fun hp =>
    id_of_numbered (hproducers ▸ hp)
  have hplace : ∀ p ∈ g.producers, g.producers[p.id]? = some p := by
    intro p hp
    obtain ⟨i, hi⟩ := List.getElem?_of_mem hp
    rw [hid hi, hi]
  obtain ⟨hright, hfound⟩ := right_of_lay hlength hrange hrank.reduce.acyclic hlay
  refine ⟨hid, (nodup_of_duplicate? hduplicate).1, hlength, @fun p q hp hq => ?_,
    fun p hp => not_mem_of_selfReference? hself hp, hrange, ⟨rank, _, hrank, hbound⟩, d, tops,
    hright, hfound, hnodes, hroot⟩
  -- the id of a producer is its place, so that its row is made of its own references
  have hof : g.deps.of p.id = dependencies g.producers p := by
    rw [hdeps, Deps.of, List.getElem?_map, hplace p hp]
    rfl
  rw [hof, mem_dependencies]
  constructor
  · rintro ⟨q', hq', hqid, hname⟩
    have heq := hplace q' hq'
    rw [hqid, hplace q hq] at heq
    exact Option.some.inj heq ▸ hname
  · exact fun hname => ⟨q, hq, rfl, hname⟩

/-! ## The nodes of producers -/

namespace Drafted

variable {g : Graph} {d : Draft} {tops : List Nat}

theorem grounded (h : g.Drafted d tops) : g.nodes.Grounded := by
  rw [h.nodes]
  refine h.right.grounded.concat fun a ha => ?_
  have hfound : some a ∈ g.deps.terminals.map d.find? := h.found ▸ List.mem_map_of_mem ha
  obtain ⟨t, -, ht⟩ := List.mem_map.1 hfound
  exact h.right.lt_of_find? ht

/-- Whatever a producer that was laid out depends on was laid out too. -/
theorem exists_find?_of_reach (h : g.Drafted d tops) {i j a : Nat} (hi : d.find? i = some a)
    (hij : Relation.ReflTransGen g.deps.reduce.Edge i j) : ∃ b, d.find? j = some b := by
  induction hij with
  | refl => exact ⟨a, hi⟩
  | @tail k j _ hedge ih =>
    obtain ⟨b, hb⟩ := ih
    obtain ⟨p, call, before, -, -, hbefore, -⟩ := h.right.stands hb
    have hfound : d.find? j ∈ before.map some := hbefore ▸ List.mem_map_of_mem hedge
    obtain ⟨c, -, hc⟩ := List.mem_map.1 hfound
    exact ⟨c, hc.symm⟩

end Drafted

/-- The nodes of a graph, by the producers they stand for. -/
structure Placed (g : Graph) (call node : Nat → Nat) : Prop where
  calls : ∀ {i : Nat} {p : Producer}, g.producers[i]? = some p → g.nodes[call i]? = some (.call p)
  follows : ∀ {i : Nat}, i < g.producers.length →
    g.nodes.Follows (call i) ((g.deps.reduce.of i).map node) (node i)
  root : g.nodes[g.root]? = some (.parallel (g.deps.terminals.map node))

namespace Sound

variable {g : Graph}

theorem grounded (h : g.Sound) : g.nodes.Grounded := by
  obtain ⟨d, tops, hdrafted⟩ := h.drafted
  exact hdrafted.grounded

/-- Every producer is laid out, since it is below one that no other depends on. -/
theorem exists_find? (h : g.Sound) {d : Draft} {tops : List Nat} (hdrafted : g.Drafted d tops)
    {i : Nat} (hi : i < g.producers.length) : ∃ a, d.find? i = some a := by
  obtain ⟨rank, bound, hrank, hbound⟩ := h.ranked
  obtain ⟨t, ht, hti⟩ := Deps.exists_terminal hrank hbound (h.length.symm ▸ hi)
  have hreduced : Relation.ReflTransGen g.deps.reduce.Edge t i := by
    rcases Relation.reflTransGen_iff_eq_or_transGen.1 hti with rfl | hbelow
    · exact .refl
    · exact ((Deps.below_reduce h.range hrank).2 hbelow).to_reflTransGen
  have hfound : d.find? t ∈ tops.map some := hdrafted.found ▸ List.mem_map_of_mem ht
  obtain ⟨a, -, ha⟩ := List.mem_map.1 hfound
  exact hdrafted.exists_find?_of_reach ha.symm hreduced

theorem exists_placed (h : g.Sound) : ∃ call node, g.Placed call node := by
  obtain ⟨d, tops, hdrafted⟩ := h.drafted
  have hkept : ∀ {a : Nat} {n : Node}, d.nodes[a]? = some n → g.nodes[a]? = some n := by
    intro a n ha
    rw [hdrafted.nodes, List.getElem?_append_left (List.getElem?_eq_some_iff.1 ha).1]
    exact ha
  -- the node of a producer is the one that is remembered; every producer has one in the end
  let node (i : Nat) : Nat := (d.find? i).getD 0
  have hmap : ∀ {is as : List Nat}, is.map d.find? = as.map some → as = is.map node := by
    intro is as heq
    have heq' := congrArg (List.map (Option.getD · 0)) heq
    rw [List.map_map, List.map_map] at heq'
    exact (List.map_id as).symm.trans heq'.symm
  have hstands : ∀ i, ∃ call, i < g.producers.length →
      (∀ p, g.producers[i]? = some p → g.nodes[call]? = some (.call p)) ∧
        g.nodes.Follows call ((g.deps.reduce.of i).map node) (node i) := by
    intro i
    rcases Nat.lt_or_ge i g.producers.length with hi | hi
    · obtain ⟨a, ha⟩ := h.exists_find? hdrafted hi
      obtain ⟨p, call, before, hp, hcall, hbefore, hfollows⟩ := hdrafted.right.stands ha
      refine ⟨call, fun _ => ⟨fun q hq => ?_, ?_⟩⟩
      · cases hp.symm.trans hq
        exact hkept hcall
      · have hnode : node i = a := by
          show (d.find? i).getD 0 = a
          rw [ha]
          rfl
        rw [hnode, ← hmap hbefore]
        exact hfollows.mono hkept
    · exact ⟨0, fun hlt => absurd hlt (Nat.not_lt.2 hi)⟩
  -- its call stands somewhere among the nodes as well, but is not remembered
  choose call hcall using hstands
  refine ⟨call, node, fun hp => (hcall _ (List.getElem?_eq_some_iff.1 hp).1).1 _ hp,
    fun hi => (hcall _ hi).2, ?_⟩
  rw [hdrafted.root, hdrafted.nodes, ← hmap hdrafted.found]
  exact Nodes.getElem?_concat_length d.nodes _

end Sound

/-! ## The equation of plans -/

/-- The plan of a node that comes after others is the call after theirs. -/
theorem plan_of_follows {nodes : Nodes} (hgrounded : nodes.Grounded) {p : Producer} {call a : Nat}
    {before : List Nat} (hcall : nodes[call]? = some (.call p))
    (hfollows : nodes.Follows call before a) :
    nodes.plan a = planAfter p (before.map nodes.plan) := by
  have hplan : nodes.plan call = .call p := hgrounded.plan_eq hcall
  match before, hfollows with
  | [], heq => exact heq ▸ hplan
  | [dep], hnode =>
    rw [hgrounded.plan_eq hnode]
    simp only [Node.unfold, List.map_cons, List.map_nil, hplan, planAfter]
  | first :: second :: others, ⟨group, hgroup, hnode⟩ =>
    rw [hgrounded.plan_eq hnode]
    simp only [Node.unfold, List.map_cons, List.map_nil, hplan, hgrounded.plan_eq hgroup, planAfter]

/-- The plans that unfold from the nodes of producers. -/
theorem Placed.layout {g : Graph} {call node : Nat → Nat} (h : g.Placed call node)
    (hgrounded : g.nodes.Grounded) :
    (∀ {i : Nat} {p : Producer}, g.producers[i]? = some p → g.nodes.plan (node i) =
      planAfter p ((g.deps.reduce.of i).map fun d => g.nodes.plan (node d))) ∧
    g.plan = .parallel (g.deps.terminals.map fun d => g.nodes.plan (node d)) := by
  refine ⟨fun {i p} hp => ?_, ?_⟩
  · have hfollows := h.follows (List.getElem?_eq_some_iff.1 hp).1
    have heq := plan_of_follows hgrounded (h.calls hp) hfollows
    rwa [List.map_map] at heq
  · rw [Graph.plan, hgrounded.plan_eq h.root, Node.unfold, List.map_map]
    rfl

end Graph

end Gateway
