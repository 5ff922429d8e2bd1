import Gateway.Plan.Node
import Mathlib.Data.List.Induction
import Mathlib.Data.List.Nodup
import Mathlib.Logic.Relation

/-!
# Gateway.Proofs.Plan.Sharing — what unfolds from shared nodes

Nodes are *grounded* if each of them refers to earlier ones only. Then every node has one plan, made
of the plans of the nodes below it, and the calls of this plan are the calls that one comes to by
following addresses. So whatever is said of a plan can be said of nodes, and of nodes more can be
said: a plan does not tell whether two calls of a producer in it are one node or two.

Grounded is all that is asked here. It rules out circles, and it is kept whenever a node is added
that refers to what is there; who adds nodes, and why, does not matter.
-/

set_option autoImplicit false

namespace Gateway

theorem Plan.mem_allCalls {plans : List Plan} {p : Producer} :
    p ∈ allCalls plans ↔ ∃ plan ∈ plans, p ∈ plan.calls := by
  induction plans with
  | nil => simp [allCalls]
  | cons plan rest ih => simp only [allCalls, List.mem_append, ih, List.mem_cons, exists_eq_or_imp]

/-- The plan of a node, given the plan that unfolds from every address. -/
def Node.unfold (plan : Nat → Plan) : Node → Plan
  | .call p => .call p
  | .sequence steps => .sequence (steps.map plan)
  | .parallel branches => .parallel (branches.map plan)

namespace Nodes

/-- Every node refers to earlier ones only. -/
def Grounded (nodes : Nodes) : Prop :=
  ∀ (a : Nat) (node : Node), nodes[a]? = some node → ∀ b ∈ node.children, b < a

/-- The node at an address refers to another address. -/
def Refers (nodes : Nodes) (a b : Nat) : Prop := ∃ node, nodes[a]? = some node ∧ b ∈ node.children

/-- One address is come to from another by following references. -/
def Reaches (nodes : Nodes) : Nat → Nat → Prop := Relation.ReflTransGen nodes.Refers

variable {nodes nodes' : Nodes} {node : Node} {a b : Nat}

theorem getElem?_concat_length (nodes : Nodes) (node : Node) :
    (nodes ++ [node])[nodes.length]? = some node := by
  rw [List.getElem?_append_right (Nat.le_refl _), Nat.sub_self]
  rfl

/-- A node that refers to what is there may be added. -/
theorem Grounded.concat (h : nodes.Grounded) (hnode : ∀ b ∈ node.children, b < nodes.length) :
    Grounded (nodes ++ [node]) := by
  intro a other ha b hb
  rcases Nat.lt_trichotomy a nodes.length with hlt | rfl | hgt
  · rw [List.getElem?_append_left hlt] at ha
    exact h a other ha b hb
  · cases (getElem?_concat_length nodes node).symm.trans ha
    exact hnode b hb
  · rw [List.getElem?_eq_none (by rw [List.length_append]; exact hgt)] at ha
    cases ha

/-- What is referred to is closed if every node in it refers to nodes in it only. -/
theorem Reaches.of_closed {among : Nat → Prop}
    (hclosed : ∀ a, among a → ∀ node, nodes[a]? = some node → ∀ b ∈ node.children, among b)
    (h : nodes.Reaches a b) (ha : among a) : among b := by
  induction h with
  | refl => exact ha
  | tail _ hrefers ih =>
    obtain ⟨node, hnode, hmem⟩ := hrefers
    exact hclosed _ ih node hnode _ hmem

/-! ## Plans -/

theorem plans_concat (nodes : Nodes) (node : Node) :
    plans (nodes ++ [node]) = nodes.plans ++ [node.plan nodes.plans] := by
  rw [plans, List.foldl_append]
  rfl

theorem length_plans (nodes : Nodes) : nodes.plans.length = nodes.length := by
  induction nodes using List.reverseRecOn with
  | nil => rfl
  | append_singleton nodes node ih =>
    rw [plans_concat, List.length_append, List.length_append, ih, List.length_singleton,
      List.length_singleton]

/-- Later nodes leave the plans of earlier ones as they are. -/
theorem plans_prefix (h : nodes <+: nodes') : nodes.plans <+: plans nodes' := by
  obtain ⟨more, rfl⟩ := h
  induction more using List.reverseRecOn with
  | nil => exact (List.append_nil nodes).symm ▸ List.prefix_refl _
  | append_singleton more node ih =>
    rw [← List.append_assoc, plans_concat]
    exact ih.trans (List.prefix_append _ _)

theorem getElem?_plans_of_lt (h : a < nodes.length) : nodes.plans[a]? = some (nodes.plan a) := by
  rw [plan, List.getElem?_eq_getElem (by rwa [length_plans])]
  rfl

/-- The plan of a node is made of those of the nodes before it. -/
theorem plan_of_getElem? (h : nodes[a]? = some node) :
    nodes.plan a = node.plan (plans (nodes.take a)) := by
  obtain ⟨hlt, -⟩ := List.getElem?_eq_some_iff.1 h
  have htake : nodes.take (a + 1) = nodes.take a ++ [node] := by
    rw [List.take_add_one, h]
    rfl
  have hlength : (plans (nodes.take a)).length = a := by
    rw [length_plans, List.length_take, Nat.min_eq_left (Nat.le_of_lt hlt)]
  obtain ⟨later, hlater⟩ := plans_prefix (List.take_prefix (a + 1) nodes)
  rw [plan, ← hlater, htake, plans_concat, List.append_assoc,
    List.getElem?_append_right (Nat.le_of_eq hlength), hlength, Nat.sub_self]
  rfl

/-- Looking up the plans of earlier addresses finds all of them. -/
theorem filterMap_plans {ids : List Nat} (ha : a ≤ nodes.length) (hids : ∀ b ∈ ids, b < a) :
    ids.filterMap ((plans (nodes.take a))[·]?) = ids.map nodes.plan := by
  rw [← List.filterMap_eq_map]
  refine List.filterMap_congr fun b hb => ?_
  have hlt := hids b hb
  have hlength : b < (nodes.take a).length := by
    rw [List.length_take]
    omega
  obtain ⟨later, hlater⟩ := plans_prefix (List.take_prefix a nodes)
  rw [Function.comp_apply, ← getElem?_plans_of_lt (Nat.lt_of_lt_of_le hlt ha), ← hlater,
    List.getElem?_append_left (by rwa [length_plans])]

/-- The plan of a node is made of those of the nodes that it refers to. -/
theorem Grounded.plan_eq (h : nodes.Grounded) (ha : nodes[a]? = some node) :
    nodes.plan a = node.unfold nodes.plan := by
  have hle := Nat.le_of_lt (List.getElem?_eq_some_iff.1 ha).1
  rw [plan_of_getElem? ha]
  cases node with
  | call p => rfl
  | sequence steps => exact congrArg Plan.sequence (filterMap_plans hle (h a _ ha))
  | parallel branches => exact congrArg Plan.parallel (filterMap_plans hle (h a _ ha))

/-- What is called in the plan of a node is what one comes to from it. -/
theorem Grounded.mem_calls_plan (h : nodes.Grounded) {p : Producer} (ha : nodes[a]? = some node) :
    p ∈ (nodes.plan a).calls ↔ ∃ b, nodes.Reaches a b ∧ nodes[b]? = some (.call p) := by
  induction a using Nat.strongRecOn generalizing node with
  | ind a ih =>
  have hinner : ∀ ids : List Nat, (∀ b ∈ ids, b < a) →
      (p ∈ Plan.allCalls (ids.map nodes.plan) ↔
        ∃ c ∈ ids, ∃ b, nodes.Reaches c b ∧ nodes[b]? = some (.call p)) := by
    intro ids hids
    simp only [Plan.mem_allCalls, List.mem_map, exists_exists_and_eq_and]
    refine exists_congr fun c => and_congr_right fun hc => ?_
    have hlt := Nat.lt_trans (hids c hc) (List.getElem?_eq_some_iff.1 ha).1
    exact ih c (hids c hc) (List.getElem?_eq_getElem hlt)
  -- past `a` one goes on from one of its children
  have hstep : (∃ b, nodes.Reaches a b ∧ nodes[b]? = some (.call p)) ↔
      node = .call p ∨ ∃ c ∈ node.children, ∃ b, nodes.Reaches c b ∧ nodes[b]? = some (.call p) := by
    constructor
    · rintro ⟨b, hab, hb⟩
      rcases Relation.ReflTransGen.cases_head hab with rfl | ⟨c, ⟨node', hnode', hc⟩, hcb⟩
      · exact .inl (Option.some.inj (ha.symm.trans hb))
      · cases ha.symm.trans hnode'
        exact .inr ⟨c, hc, b, hcb, hb⟩
    · rintro (rfl | ⟨c, hc, b, hcb, hb⟩)
      · exact ⟨a, .refl, ha⟩
      · exact ⟨b, .head ⟨node, ha, hc⟩ hcb, hb⟩
  rw [hstep, h.plan_eq ha]
  cases node with
  | call q => simp [Node.unfold, Plan.calls, Node.children, eq_comm]
  | sequence steps => exact (hinner steps (h a _ ha)).trans (by simp [Node.children])
  | parallel branches => exact (hinner branches (h a _ ha)).trans (by simp [Node.children])

end Nodes

end Gateway
