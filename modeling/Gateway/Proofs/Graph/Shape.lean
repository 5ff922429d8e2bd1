import Gateway.Proofs.Graph.Sight

/-!
# Gateway.Proofs.Graph.Shape — the nodes of a graph

The root of an accepted graph has one branch for each producer that no other depends on. A producer
that depends on others stands behind them, in a sequence of its own, and nowhere else; one that
depends on none stands by itself. Reducing the dependencies loses no producer, since each is below one
that no other depends on, and what one comes to from the first step of a sequence is all that is below
its producer.

All of this is said of nodes and not of the plan that unfolds from them. In the plan, which is a tree,
the call of a producer stands once for everyone that waits for it, and two places of it look the same
whether they are one thing or two things alike. Of nodes one can say that there is one: whatever
address with the call of a producer is come to, it is the same address. What a plan is good for is
counting what is below: the calls in the plan of a node are the calls that one comes to from it.
-/

set_option autoImplicit false

namespace Gateway

theorem Deps.mem_flatten {deps : Deps} {d : Nat} : d ∈ deps.flatten ↔ ∃ i, d ∈ deps.of i := by
  rw [List.mem_flatten]
  constructor
  · rintro ⟨direct, hdirect, hd⟩
    obtain ⟨i, hi⟩ := List.getElem?_of_mem hdirect
    refine ⟨i, ?_⟩
    rw [of, hi]
    exact hd
  · rintro ⟨i, hi⟩
    have hlt := lt_length_of_mem hi
    rw [of, List.getElem?_eq_getElem hlt] at hi
    exact ⟨_, List.getElem_mem hlt, hi⟩

namespace Graph

/-- A producer refers to another one of the graph. -/
def Depends (g : Graph) (p q : Producer) : Prop :=
  p ∈ g.producers ∧ q ∈ g.producers ∧ q.name ≠ p.name ∧ p.RefersTo q.name

/-- The nodes are what the references of producers make them, when `call` is the address of the call
of each producer and `node` the address that stands for it where it is waited for. -/
structure Shaped (g : Graph) (call node : Producer → Nat) : Prop where
  /-- One branch for each producer that no other depends on, in the order of declaration. -/
  root : ∃ tops : List Producer, tops.Sublist g.producers ∧
    (∀ p, p ∈ tops ↔ p ∈ g.producers ∧ ∀ q, ¬ g.Depends q p) ∧
    g.nodes[g.root]? = some (.parallel (tops.map node)) ∧ g.size = tops.length
  /-- Every producer is come to from the root, and a run has a cell for its call and takes its
  result. -/
  occurs : ∀ p ∈ g.producers, g.nodes.Reaches g.root (node p) ∧ g.nodes.Reaches g.root (call p) ∧
    g.nodes[call p]? = some (.call p) ∧
    (Board.ofPlan g.plan).cells p.id = some .vacant ∧
    (Board.ofPlan g.plan).results.contains p.name
  /-- All calls of a producer are one node. -/
  one : ∀ p a, g.nodes.Reaches g.root a → g.nodes[a]? = some (.call p) →
    p ∈ g.producers ∧ a = call p
  /-- A producer that depends on none is called at once. -/
  alone : ∀ p ∈ g.producers, (∀ q, ¬ g.Depends p q) → node p = call p
  /-- One that depends on others is called after all of them, directly or not. -/
  behind : ∀ p q, g.Depends p q → ∃ first, g.nodes[node p]? = some (.sequence [first, call p]) ∧
    first ≠ call p ∧ ∀ r, (∃ a, g.nodes.Reaches first a ∧ g.nodes[a]? = some (.call r)) ↔
      Relation.TransGen g.Depends p r
  /-- It is called nowhere else, so that all sequences of a producer are one node too. -/
  own : ∀ p q, g.Depends p q → ∀ a, g.nodes.Reaches g.root a → g.nodes.Refers a (call p) → a = node p
  /-- There is a sequence for nothing else. -/
  sequences : ∀ a steps, g.nodes.Reaches g.root a → g.nodes[a]? = some (.sequence steps) →
    ∃ p ∈ g.producers, a = node p

variable {g : Graph}

/-! ## Dependencies -/

theorem Sound.depends_iff (h : g.Sound) {p q : Producer} (hp : p ∈ g.producers) :
    g.Depends p q ↔ q ∈ h.ensemble.needs p := by
  rw [h.mem_needs_iff hp]
  constructor
  · rintro ⟨-, hq, hne, hrefers⟩
    exact ⟨hq, Producer.mem_references_of_refersTo hrefers hne⟩
  · rintro ⟨hq, hname⟩
    refine ⟨hp, hq, fun heq => ?_, Producer.refersTo_of_mem_references hname⟩
    -- a producer does not depend on itself
    rw [heq] at hname
    rcases List.mem_append.1 hname with hname | hname
    · exact h.self p hp hname
    · exact of_decide_eq_true (List.mem_filter.1 hname).2 rfl

theorem Sound.depends_iff_edge (h : g.Sound) {p q : Producer} (hp : p ∈ g.producers)
    (hq : q ∈ g.producers) : g.Depends p q ↔ q.id ∈ g.deps.of p.id := by
  rw [h.depends_iff hp, h.mem_needs]
  exact and_iff_right hq

/-- What is below a producer is what it needs and all that is under that. -/
theorem Sound.below_iff (h : g.Sound) {p q : Producer} (hp : p ∈ g.producers) :
    Relation.TransGen g.Depends p q ↔ ∃ d ∈ h.ensemble.needs p, h.ensemble.Under d q := by
  constructor
  · intro hpq
    obtain ⟨d, hd, hdq⟩ := Relation.TransGen.head'_iff.1 hpq
    refine ⟨d, (h.depends_iff hp).1 hd, ?_⟩
    exact Relation.ReflTransGen.mono (fun a b hab => (h.depends_iff hab.1).1 hab) d q hdq
  · rintro ⟨d, hd, hdq⟩
    have hfirst := (h.depends_iff hp).2 hd
    clear hd
    -- whatever is come to is a producer of the graph
    induction hdq with
    | refl => exact .single hfirst
    | tail _ hr ih =>
      obtain ⟨r, -, hlast⟩ := Relation.TransGen.tail'_iff.1 ih
      exact ih.tail ((h.depends_iff hlast.2.1).2 hr)

/-- Nodes that no node depends on are producers that no producer depends on. -/
theorem Sound.not_mem_flatten (h : g.Sound) {p : Producer} (hp : p ∈ g.producers) :
    (!g.deps.flatten.contains p.id) = true ↔ ∀ q, ¬ g.Depends q p := by
  rw [Bool.not_eq_true', ← Bool.not_eq_true, List.contains_iff_mem, Deps.mem_flatten]
  constructor
  · intro hnone q hq
    exact hnone ⟨q.id, (h.depends_iff_edge hq.1 hp).1 hq⟩
  · rintro hnone ⟨i, hi⟩
    obtain ⟨q, hq, rfl⟩ := h.exists_producer (Deps.lt_length_of_mem hi)
    exact hnone q ((h.depends_iff_edge hq hp).2 hi)

theorem Sound.rank_lt_of_below (h : g.Sound) {rank : Nat → Nat} (hrank : g.deps.Ranked rank)
    {p q : Producer} (hpq : Relation.TransGen g.Depends p q) : rank q.id < rank p.id := by
  induction hpq with
  | single hd => exact hrank _ _ ((h.depends_iff_edge hd.1 hd.2.1).1 hd)
  | tail _ hd ih => exact Nat.lt_trans (hrank _ _ ((h.depends_iff_edge hd.1 hd.2.1).1 hd)) ih

/-- A producer depends on some other one just if reducing leaves it a dependency. -/
theorem Sound.exists_depends_iff (h : g.Sound) {p : Producer} (hp : p ∈ g.producers) :
    (∃ q, g.Depends p q) ↔ g.deps.reduce.of p.id ≠ [] := by
  constructor
  · rintro ⟨q, hq⟩ hnil
    obtain ⟨e, -, he, -⟩ := h.exists_kept ((h.depends_iff hp).1 hq)
    rw [hnil] at he
    exact absurd he List.not_mem_nil
  · intro hne
    obtain ⟨d, hd⟩ := List.exists_mem_of_ne_nil _ hne
    have hedge := Deps.mem_of_mem_reduce hd
    obtain ⟨q, hq, rfl⟩ := h.mem_of_edge hedge
    exact ⟨q, (h.depends_iff_edge hp hq).2 hedge⟩

/-- The plans of nodes are those of producers. -/
theorem Sound.exists_of_mem_map (h : g.Sound) {plan : Nat → Plan} {ids : List Nat}
    (hids : ∀ d ∈ ids, d < g.deps.length) {part : Plan} (hpart : part ∈ ids.map plan) :
    ∃ q ∈ g.producers, q.id ∈ ids ∧ part = plan q.id := by
  obtain ⟨d, hd, rfl⟩ := List.mem_map.1 hpart
  obtain ⟨q, hq, rfl⟩ := h.exists_producer (hids d hd)
  exact ⟨q, hq, hd, rfl⟩

theorem Sound.lt_of_mem_reduce (h : g.Sound) {i d : Nat} (hd : d ∈ g.deps.reduce.of i) :
    d < g.deps.length :=
  h.range i d (Deps.mem_of_mem_reduce hd)

theorem Sound.lt_of_mem_terminals {d : Nat} (hd : d ∈ g.deps.terminals) : d < g.deps.length :=
  List.mem_range.1 (List.mem_filter.1 hd).1

/-- What is called before a producer is called in the plan of one that it needs. -/
theorem Sound.exists_needs_of_mem (h : g.Sound) {plan : Nat → Plan} {p q : Producer}
    (hq : q ∈ Plan.allCalls ((g.deps.reduce.of p.id).map plan)) :
    ∃ e ∈ h.ensemble.needs p, e.id ∈ g.deps.reduce.of p.id ∧ q ∈ (plan e.id).calls := by
  obtain ⟨branch, hbranch, hcall⟩ := Plan.mem_allCalls.1 hq
  obtain ⟨e, he, hid, rfl⟩ := h.exists_of_mem_map (fun _ => h.lt_of_mem_reduce) hbranch
  exact ⟨e, h.mem_needs.2 ⟨he, Deps.mem_of_mem_reduce hid⟩, hid, hcall⟩

/-! ## What is below a producer -/

namespace Plans

variable {h : g.Sound} {plan : Nat → Plan}

/-- What is called in the plan of a producer is under it. -/
theorem under_of_mem_calls (hplan : Plans h plan) {rank : Nat → Nat} (hrank : g.deps.Ranked rank)
    {p q : Producer} (hp : p ∈ g.producers) (hq : q ∈ (plan p.id).calls) :
    h.ensemble.Under p q := by
  rcases hplan.cases hp with ⟨-, heq⟩ | ⟨first, heq, -, hcalls, -⟩
  · rw [heq] at hq
    cases List.mem_singleton.1 hq
    exact .refl
  · rw [heq] at hq
    rcases List.mem_append.1 hq with hq | hq
    · rw [hcalls] at hq
      obtain ⟨e, he, hid, hcall⟩ := h.exists_needs_of_mem hq
      have hlt := hrank p.id e.id (h.mem_needs.1 he).2
      exact .head he (hplan.under_of_mem_calls hrank (h.mem_needs.1 he).1 hcall)
    · cases List.mem_singleton.1 hq
      exact .refl
termination_by rank p.id

/-- What is called before a producer is all that is below it. -/
theorem mem_calls_before (hplan : Plans h plan) {rank : Nat → Nat} (hrank : g.deps.Ranked rank)
    {p q : Producer} (hp : p ∈ g.producers) :
    q ∈ Plan.allCalls ((g.deps.reduce.of p.id).map plan) ↔ Relation.TransGen g.Depends p q := by
  rw [h.below_iff hp]
  constructor
  · intro hq
    obtain ⟨e, he, -, hcall⟩ := h.exists_needs_of_mem hq
    exact ⟨e, he, hplan.under_of_mem_calls hrank (h.mem_needs.1 he).1 hcall⟩
  · rintro ⟨d, hd, hdq⟩
    obtain ⟨e, he, hid, hed⟩ := h.exists_kept hd
    exact mem_allCalls hid (hplan.mem_calls hrank he (hed.trans hdq))

theorem size_root (hplan : Plans h plan) : g.size = g.deps.terminals.length := by
  have hlength : ∀ ids : List Nat, (∀ d ∈ ids, d < g.deps.length) →
      (Plan.allNames (ids.map plan)).length = ids.length := by
    intro ids hids
    induction ids with
    | nil => rfl
    | cons d rest ih =>
      obtain ⟨q, hq, rfl⟩ := h.exists_producer (hids d List.mem_cons_self)
      rw [List.map_cons, Plan.allNames, hplan.names hq, List.length_append,
        ih fun e he => hids e (List.mem_cons_of_mem _ he), List.length_singleton, List.length_cons,
        Nat.add_comm]
  rw [Graph.size, Plan.size, hplan.root]
  exact hlength _ fun _ => Sound.lt_of_mem_terminals

end Plans

/-! ## The pieces of a graph -/

/-- What there is in a graph: the root, and for each producer its call, its node and the group of those
before it. -/
inductive Piece (g : Graph) (call node : Nat → Nat) : Nat → Prop
  | root : Piece g call node g.root
  | call {p : Producer} (hp : p ∈ g.producers) : Piece g call node (call p.id)
  | node {p : Producer} (hp : p ∈ g.producers) : Piece g call node (node p.id)
  | group {p : Producer} (hp : p ∈ g.producers) {a : Nat}
    (ha : g.nodes[a]? = some (.parallel ((g.deps.reduce.of p.id).map node))) : Piece g call node a

namespace Placed

variable {call node : Nat → Nat} {p q : Producer} {a b first : Nat}

theorem call_of_mem (hplaced : g.Placed call node) (h : g.Sound) (hp : p ∈ g.producers) :
    g.nodes[call p.id]? = some (.call p) := hplaced.calls (h.place hp)

/-- How a producer stands in the graph: by itself, or behind the node of one other or a group. -/
theorem cases (hplaced : g.Placed call node) (h : g.Sound) (hp : p ∈ g.producers) :
    (g.deps.reduce.of p.id = [] ∧ node p.id = call p.id) ∨
    g.deps.reduce.of p.id ≠ [] ∧ ∃ first, g.nodes[node p.id]? = some (.sequence [first, call p.id]) ∧
      ((∃ d ∈ g.deps.reduce.of p.id, first = node d) ∨
        g.nodes[first]? = some (.parallel ((g.deps.reduce.of p.id).map node))) := by
  have hfollows := hplaced.follows (List.getElem?_eq_some_iff.1 (h.place hp)).1
  match g.deps.reduce.of p.id, hfollows with
  | [], heq => exact .inl ⟨rfl, heq⟩
  | [d], hnode =>
    exact .inr ⟨List.cons_ne_nil _ _, _, hnode, .inl ⟨d, List.mem_singleton_self d, rfl⟩⟩
  | _ :: _ :: _, ⟨group, hgroup, hnode⟩ =>
    exact .inr ⟨List.cons_ne_nil _ _, group, hnode, .inr hgroup⟩

theorem piece_of_mem (h : g.Sound) {ids : List Nat} (hids : ∀ d ∈ ids, d < g.deps.length)
    (ha : a ∈ ids.map node) : g.Piece call node a := by
  obtain ⟨d, hd, rfl⟩ := List.mem_map.1 ha
  obtain ⟨q, hq, rfl⟩ := h.exists_producer (hids d hd)
  exact .node hq

/-- The children of pieces are pieces. -/
theorem piece_child (hplaced : g.Placed call node) (h : g.Sound) (ha : g.Piece call node a)
    {n : Node} (hn : g.nodes[a]? = some n) (hb : b ∈ n.children) : g.Piece call node b := by
  cases ha with
  | root =>
    cases hplaced.root.symm.trans hn
    exact piece_of_mem h (fun _ => Sound.lt_of_mem_terminals) hb
  | call hp =>
    cases (hplaced.call_of_mem h hp).symm.trans hn
    exact absurd hb List.not_mem_nil
  | @node p hp =>
    rcases hplaced.cases h hp with ⟨-, heq⟩ | ⟨-, first, hnode, hfirst⟩
    · rw [heq] at hn
      cases (hplaced.call_of_mem h hp).symm.trans hn
      exact absurd hb List.not_mem_nil
    · cases hnode.symm.trans hn
      rcases List.mem_pair.1 hb with rfl | rfl
      · rcases hfirst with ⟨d, hd, rfl⟩ | hgroup
        · obtain ⟨q, hq, rfl⟩ := h.exists_producer (h.lt_of_mem_reduce hd)
          exact .node hq
        · exact .group hp hgroup
      · exact .call hp
  | group hp hgroup =>
    cases hgroup.symm.trans hn
    exact piece_of_mem h (fun _ => h.lt_of_mem_reduce) hb

theorem piece_of_reaches (hplaced : g.Placed call node) (h : g.Sound)
    (ha : g.nodes.Reaches g.root a) : g.Piece call node a :=
  ha.of_closed (fun _ hpiece _ hn _ hb => hplaced.piece_child h hpiece hn hb) .root

/-- All calls of a producer are one node. -/
theorem eq_of_call (hplaced : g.Placed call node) (h : g.Sound) (ha : g.Piece call node a)
    (hcall : g.nodes[a]? = some (.call p)) : p ∈ g.producers ∧ a = call p.id := by
  cases ha with
  | root => cases hplaced.root.symm.trans hcall
  | call hp =>
    cases (hplaced.call_of_mem h hp).symm.trans hcall
    exact ⟨hp, rfl⟩
  | node hp =>
    rcases hplaced.cases h hp with ⟨-, heq⟩ | ⟨-, first, hnode, -⟩
    · rw [heq] at hcall ⊢
      cases (hplaced.call_of_mem h hp).symm.trans hcall
      exact ⟨hp, rfl⟩
    · cases hnode.symm.trans hcall
  | group hp hgroup => cases hgroup.symm.trans hcall

theorem exists_of_sequence (hplaced : g.Placed call node) (h : g.Sound) (ha : g.Piece call node a)
    {steps : List Nat} (hsequence : g.nodes[a]? = some (.sequence steps)) :
    ∃ p ∈ g.producers, a = node p.id := by
  cases ha with
  | root => cases hplaced.root.symm.trans hsequence
  | call hp => cases (hplaced.call_of_mem h hp).symm.trans hsequence
  | node hp => exact ⟨_, hp, rfl⟩
  | group hp hgroup => cases hgroup.symm.trans hsequence

/-- The node of a producer is no bare call of one that depends on others. -/
theorem node_ne_call (hplaced : g.Placed call node) (h : g.Sound) (hp : p ∈ g.producers)
    (hne : g.deps.reduce.of p.id ≠ []) (hq : q ∈ g.producers) : node q.id ≠ call p.id := by
  intro heq
  have hcall : g.nodes[node q.id]? = some (.call p) := heq ▸ hplaced.call_of_mem h hp
  rcases hplaced.cases h hq with ⟨hnil, heq'⟩ | ⟨-, first, hnode, -⟩
  · cases (hplaced.call_of_mem h hq).symm.trans (heq' ▸ hcall)
    exact hne hnil
  · cases hnode.symm.trans hcall

/-- A producer that depends on others is called in its own sequence only. -/
theorem eq_of_refers (hplaced : g.Placed call node) (h : g.Sound) (hp : p ∈ g.producers)
    (hne : g.deps.reduce.of p.id ≠ []) (ha : g.Piece call node a)
    (hrefers : g.nodes.Refers a (call p.id)) : a = node p.id := by
  obtain ⟨n, hn, hmem⟩ := hrefers
  have hbare : ∀ ids : List Nat, (∀ d ∈ ids, d < g.deps.length) → call p.id ∉ ids.map node := by
    intro ids hids hin
    obtain ⟨d, hd, heq⟩ := List.mem_map.1 hin
    obtain ⟨q, hq, rfl⟩ := h.exists_producer (hids d hd)
    exact hplaced.node_ne_call h hp hne hq heq
  -- the root and the groups hold nodes, which are no calls; a sequence holds the call of its own
  cases ha with
  | root =>
    cases hplaced.root.symm.trans hn
    exact absurd hmem (hbare _ fun _ => Sound.lt_of_mem_terminals)
  | call hq =>
    cases (hplaced.call_of_mem h hq).symm.trans hn
    exact absurd hmem List.not_mem_nil
  | @node q hq =>
    rcases hplaced.cases h hq with ⟨-, heq⟩ | ⟨-, first, hnode, hfirst⟩
    · cases (hplaced.call_of_mem h hq).symm.trans (heq ▸ hn)
      exact absurd hmem List.not_mem_nil
    · cases hnode.symm.trans hn
      rcases List.mem_pair.1 hmem with rfl | heq
      · rcases hfirst with ⟨d, hd, heq⟩ | hgroup
        · exact absurd (List.mem_map.2 ⟨d, hd, heq.symm⟩) (hbare _ fun _ => h.lt_of_mem_reduce)
        · cases hgroup.symm.trans (hplaced.call_of_mem h hp)
      · cases (hplaced.call_of_mem h hq).symm.trans (heq ▸ hplaced.call_of_mem h hp)
        rfl
  | group hq hgroup =>
    cases hgroup.symm.trans hn
    exact absurd hmem (hbare _ fun _ => h.lt_of_mem_reduce)

/-- What one comes to from the first step of a producer is what is below the producer. -/
theorem reaches_first (hplaced : g.Placed call node) (h : g.Sound) (hp : p ∈ g.producers)
    (hnode : g.nodes[node p.id]? = some (.sequence [first, call p.id])) (r : Producer) :
    (∃ a, g.nodes.Reaches first a ∧ g.nodes[a]? = some (.call r)) ↔
      Relation.TransGen g.Depends p r := by
  obtain ⟨rank, -, hrank, -⟩ := h.ranked
  have hplan := Plans.of_placed (h := h) hplaced
  have hlt : first < g.nodes.length :=
    Nat.lt_trans (h.grounded _ _ hnode first List.mem_cons_self) (List.getElem?_eq_some_iff.1 hnode).1
  have hunfold : g.nodes.plan (node p.id) = .sequence [g.nodes.plan first, .call p] := by
    rw [h.grounded.plan_eq hnode, Node.unfold, List.map_cons, List.map_singleton,
      h.grounded.plan_eq (hplaced.call_of_mem h hp), Node.unfold]
  rw [← hplan.mem_calls_before hrank hp,
    ← h.grounded.mem_calls_plan (List.getElem?_eq_getElem hlt)]
  rcases hplan.cases hp with ⟨-, heq⟩ | ⟨first', heq, -, hcalls, -⟩
  · cases hunfold.symm.trans heq
  · cases hunfold.symm.trans heq
    rw [hcalls]

/-- Every call is come to from the root. -/
theorem reaches_call (hplaced : g.Placed call node) (h : g.Sound) (hp : p ∈ g.producers) :
    g.nodes.Reaches g.root (call p.id) := by
  obtain ⟨a, hreaches, hcall⟩ :=
    (h.grounded.mem_calls_plan hplaced.root).1 ((h.mem_calls p).2 hp)
  exact (hplaced.eq_of_call h (hplaced.piece_of_reaches h hreaches) hcall).2 ▸ hreaches

/-- The node of a producer is come to on the way to its call. -/
theorem reaches_node (hplaced : g.Placed call node) (h : g.Sound) (hp : p ∈ g.producers) :
    g.nodes.Reaches g.root (node p.id) := by
  have hreaches := hplaced.reaches_call h hp
  rcases hplaced.cases h hp with ⟨-, heq⟩ | ⟨hne, -⟩
  · exact heq ▸ hreaches
  · rcases Relation.ReflTransGen.cases_tail hreaches with heq | ⟨parent, hparent, hrefers⟩
    · cases (heq ▸ hplaced.root).symm.trans (hplaced.call_of_mem h hp)
    · have hpiece := hplaced.piece_of_reaches h hparent
      exact hplaced.eq_of_refers h hp hne hpiece hrefers ▸ hparent

end Placed

/-! ## The shape -/

/-- The producers that no other depends on, in their order. -/
theorem Sound.exists_tops (h : g.Sound) : ∃ tops : List Producer, tops.Sublist g.producers ∧
    (∀ p, p ∈ tops ↔ p ∈ g.producers ∧ ∀ q, ¬ g.Depends q p) ∧
    tops.map (·.id) = g.deps.terminals := by
  -- ids are places, so the terminals are met in the order of the producers
  have hids : g.producers.map (·.id) = List.range g.deps.length := by
    refine List.ext_getElem? fun i => ?_
    rw [List.getElem?_map]
    rcases Nat.lt_or_ge i g.producers.length with hlt | hge
    · rw [List.getElem?_eq_getElem hlt, Option.map_some, h.id (List.getElem?_eq_getElem hlt),
        List.getElem?_range (h.length ▸ hlt)]
    · rw [List.getElem?_eq_none hge, List.getElem?_eq_none (by simpa [h.length] using hge)]
      rfl
  refine ⟨g.producers.filter fun p => !g.deps.flatten.contains p.id, List.filter_sublist,
    fun p => ?_, ?_⟩
  · rw [List.mem_filter]
    exact and_congr_right fun hp => h.not_mem_flatten hp
  · rw [Deps.terminals, ← hids, List.filter_map]
    rfl

theorem Sound.cells_ofPlan (h : g.Sound) {p : Producer} (hp : p ∈ g.producers) :
    (Board.ofPlan g.plan).cells p.id = some .vacant := by
  refine if_pos (List.any_eq_true.2 ⟨p, (Plan.mem_producers h.mem_calls).2 hp, ?_⟩)
  exact decide_eq_true rfl

theorem Sound.contains_ofPlan (h : g.Sound) {p : Producer} (hp : p ∈ g.producers) :
    (Board.ofPlan g.plan).results.contains p.name := by
  refine List.contains_iff_mem.2 (List.mem_eraseDups.2 (List.mem_map_of_mem ?_))
  exact (Plan.mem_producers h.mem_calls).2 hp

theorem Sound.shaped (h : g.Sound) {call node : Nat → Nat} (hplaced : g.Placed call node) :
    g.Shaped (fun p => call p.id) fun p => node p.id where
  root := by
    obtain ⟨tops, hsub, hmem, hids⟩ := h.exists_tops
    refine ⟨tops, hsub, hmem, ?_, ?_⟩
    · rw [hplaced.root, ← hids, List.map_map]
      rfl
    · rw [(Plans.of_placed (h := h) hplaced).size_root, ← hids, List.length_map]
  occurs p hp := ⟨hplaced.reaches_node h hp, hplaced.reaches_call h hp, hplaced.call_of_mem h hp,
    h.cells_ofPlan hp, h.contains_ofPlan hp⟩
  one _ _ ha hcall := hplaced.eq_of_call h (hplaced.piece_of_reaches h ha) hcall
  alone p hp hnone := by
    rcases hplaced.cases h hp with ⟨-, heq⟩ | ⟨hne, -⟩
    · exact heq
    · obtain ⟨q, hq⟩ := (h.exists_depends_iff hp).2 hne
      exact absurd hq (hnone q)
  behind p q hpq := by
    obtain ⟨rank, -, hrank, -⟩ := h.ranked
    rcases hplaced.cases h hpq.1 with ⟨hnil, -⟩ | ⟨-, first, hnode, -⟩
    · exact absurd hnil ((h.exists_depends_iff hpq.1).1 ⟨q, hpq⟩)
    · have hbelow := hplaced.reaches_first h hpq.1 hnode
      refine ⟨first, hnode, ?_, hbelow⟩
      rintro rfl
      -- its own call in the first step would be below it
      have hself := (hbelow p).1 ⟨_, .refl, hplaced.call_of_mem h hpq.1⟩
      exact Nat.lt_irrefl _ (h.rank_lt_of_below hrank hself)
  own p q hpq a ha hrefers := hplaced.eq_of_refers h hpq.1 ((h.exists_depends_iff hpq.1).1 ⟨q, hpq⟩)
    (hplaced.piece_of_reaches h ha) hrefers
  sequences _ _ ha hsequence :=
    hplaced.exists_of_sequence h (hplaced.piece_of_reaches h ha) hsequence

/-- The nodes of an accepted graph have the shape of its dependencies, and the call of a producer, and
its sequence, are each one node however many wait for them. -/
theorem shaped_of_build {declared : List Producer} (h : build declared = .ok g) :
    g.producers = numbered declared ∧ ∃ call node, g.Shaped call node := by
  have hsound := sound_of_build h
  obtain ⟨call, node, hplaced⟩ := hsound.exists_placed
  exact ⟨(build_eq_ok h).1, _, _, hsound.shaped hplaced⟩

/-- The graph of two producers that take their urls from the response of a third. -/
def shared : Graph where
  producers := [.plain 0 "base", .reading 1 "left" "base", .reading 2 "right" "base"]
  deps := [[], [0], [0]]
  nodes := [.call (.reading 1 "left" "base"), .call (.plain 0 "base"), .sequence [1, 0],
    .call (.reading 2 "right" "base"), .sequence [1, 3], .parallel [2, 4]]
  root := 5

/-- The call that both wait for is one node: both of their sequences refer to it. -/
theorem shaped_of_shared :
    build [.plain 0 "base", .reading 1 "left" "base", .reading 2 "right" "base"] = .ok shared ∧
      (∃ call node, shared.Shaped call node ∧ call (.plain 0 "base") = 1) ∧
      shared.nodes.Refers 2 1 ∧ shared.nodes.Refers 4 1 := by
  have hbuild : build [.plain 0 "base", .reading 1 "left" "base", .reading 2 "right" "base"]
      = .ok shared := by cbv
  obtain ⟨-, call, node, hshaped⟩ := shaped_of_build hbuild
  have hleft : shared.nodes.Refers 2 1 := ⟨_, rfl, List.mem_cons_self⟩
  have hroot : shared.nodes.Refers shared.root 2 := ⟨_, rfl, List.mem_cons_self⟩
  have hreaches : shared.nodes.Reaches shared.root 1 := .tail (.single hroot) hleft
  have hone := (hshaped.one (.plain 0 "base") 1 hreaches rfl).2
  exact ⟨hbuild, ⟨call, node, hshaped, hone.symm⟩, hleft, ⟨_, rfl, List.mem_cons_self⟩⟩

end Graph

end Gateway
