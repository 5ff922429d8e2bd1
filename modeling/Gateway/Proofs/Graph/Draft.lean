import Gateway.Graph.Draft
import Gateway.Proofs.Graph.Walk
import Gateway.Proofs.Plan.Sharing

/-!
# Gateway.Proofs.Graph.Draft — each producer is laid out once

A draft is *right* if what it remembers of a producer is the producer's node: the call behind the
nodes that the same draft remembers of the dependencies. The last words are what matters. That the
call comes after nodes of the dependencies would be true without any memory, with a new copy of them
for each producer that waits; that these are the nodes which are remembered makes them the same ones
for everybody.

A draft only grows. It keeps the nodes that it has, and never remembers another node of a producer
that it has one of, so what was right of a producer stays right. The second half is not plain to see:
while the dependencies of a producer are laid out it has no node yet, and must not get one. It does not
because the walk never comes back to its own path.
-/

set_option autoImplicit false

namespace Gateway

/-- The node at an address is that of a producer with this call, after the nodes `before`. -/
def Nodes.Follows (nodes : Nodes) (call : Nat) : List Nat → Nat → Prop
  | [], a => a = call
  | [dep], a => nodes[a]? = some (.sequence [dep, call])
  | deps, a => ∃ group, nodes[group]? = some (.parallel deps) ∧
      nodes[a]? = some (.sequence [group, call])

/-- Nodes that are kept where they are follow each other as before. -/
theorem Nodes.Follows.mono {nodes nodes' : Nodes} {call a : Nat} {before : List Nat}
    (h : nodes.Follows call before a)
    (hkept : ∀ {b : Nat} {node : Node}, nodes[b]? = some node → nodes'[b]? = some node) :
    nodes'.Follows call before a :=
  match before, h with
  | [], heq => heq
  | [_], hnode => hkept hnode
  | _ :: _ :: _, ⟨group, hgroup, hnode⟩ => ⟨group, hkept hgroup, hkept hnode⟩

namespace Draft

/-- What a draft keeps while more is made. -/
structure Extends (c d : Draft) : Prop where
  nodes : c.nodes <+: d.nodes
  find? : ∀ {i a : Nat}, c.find? i = some a → d.find? i = some a

/-- An address is that of the node of a producer, which comes after those that the draft has of its
dependencies. -/
def Stands (ps : List Producer) (deps : Deps) (d : Draft) (i a : Nat) : Prop :=
  ∃ p call before, ps[i]? = some p ∧ d.nodes[call]? = some (.call p) ∧
    (deps.of i).map d.find? = before.map some ∧ d.nodes.Follows call before a

/-- What a draft remembers is so. -/
structure Right (ps : List Producer) (deps : Deps) (d : Draft) : Prop where
  grounded : d.nodes.Grounded
  stands : ∀ {i a : Nat}, d.find? i = some a → d.Stands ps deps i a

theorem right_empty (ps : List Producer) (deps : Deps) : Right ps deps {} :=
  ⟨fun _ _ h => (nomatch h), fun h => (nomatch h)⟩

variable {ps : List Producer} {deps : Deps} {c d e : Draft} {node : Node} {i a call : Nat}
  {before : List Nat}

/-! ## More is made -/

namespace Extends

theorem refl (d : Draft) : d.Extends d := ⟨List.prefix_refl _, id⟩

theorem trans (h : c.Extends d) (h' : d.Extends e) : c.Extends e :=
  ⟨h.nodes.trans h'.nodes, fun hc => h'.find? (h.find? hc)⟩

theorem getElem? (h : c.Extends d) (hc : c.nodes[a]? = some node) : d.nodes[a]? = some node := by
  obtain ⟨more, hmore⟩ := h.nodes
  rw [← hmore, List.getElem?_append_left (List.getElem?_eq_some_iff.1 hc).1]
  exact hc

/-- Nodes that were found before are found again. -/
theorem map_find? (h : c.Extends d) {is as : List Nat} (hc : is.map c.find? = as.map some) :
    is.map d.find? = as.map some := by
  induction is generalizing as with
  | nil => exact hc
  | cons i rest ih =>
    cases as with
    | nil => cases hc
    | cons a others =>
      obtain ⟨hfirst, hrest⟩ := List.cons_eq_cons.1 hc
      exact List.cons_eq_cons.2 ⟨h.find? hfirst, ih hrest⟩

theorem stands (h : c.Extends d) (hc : c.Stands ps deps i a) : d.Stands ps deps i a := by
  obtain ⟨p, call, before, hp, hcall, hbefore, hfollows⟩ := hc
  exact ⟨p, call, before, hp, h.getElem? hcall, h.map_find? hbefore, hfollows.mono h.getElem?⟩

end Extends

theorem lt_of_follows (hcall : call < d.nodes.length) (h : d.nodes.Follows call before a) :
    a < d.nodes.length :=
  match before, h with
  | [], heq => heq ▸ hcall
  | [_], hnode => (List.getElem?_eq_some_iff.1 hnode).1
  | _ :: _ :: _, ⟨_, _, hnode⟩ => (List.getElem?_eq_some_iff.1 hnode).1

theorem Right.lt_of_find? (h : d.Right ps deps) (hi : d.find? i = some a) : a < d.nodes.length := by
  obtain ⟨p, call, before, -, hcall, -, hfollows⟩ := h.stands hi
  exact lt_of_follows (List.getElem?_eq_some_iff.1 hcall).1 hfollows

/-- What comes of adding a node. -/
theorem add_right (h : d.add node = (a, e)) :
    d.Extends e ∧ e.nodes[a]? = some node ∧ e.made = d.made ∧
      (d.nodes.Grounded → (∀ b ∈ node.children, b < d.nodes.length) → e.nodes.Grounded) := by
  cases h
  exact ⟨⟨List.prefix_append _ _, id⟩, Nodes.getElem?_concat_length d.nodes node, rfl,
    Nodes.Grounded.concat⟩

/-- A draft that keeps what it has and remembers nothing new stays right. -/
theorem Right.of_extends (h : c.Right ps deps) (hcd : c.Extends d) (hgrounded : d.nodes.Grounded)
    (hmade : d.made = c.made) : d.Right ps deps :=
  ⟨hgrounded, fun hi => hcd.stands (h.stands (by rwa [find?, ← hmade]))⟩

/-- What comes of following some nodes: at most two more nodes, and the address of the last one. -/
theorem follow_right (h : d.follow call before = (a, e)) (hgrounded : d.nodes.Grounded)
    (hcall : call < d.nodes.length) (hbefore : ∀ b ∈ before, b < d.nodes.length) :
    d.Extends e ∧ e.nodes.Grounded ∧ e.made = d.made ∧ e.nodes.Follows call before a := by
  match before, h with
  | [], rfl => exact ⟨.refl d, hgrounded, rfl, rfl⟩
  | [dep], h =>
    obtain ⟨hext, hnode, hmade, hgrounded'⟩ := add_right h
    refine ⟨hext, hgrounded' hgrounded fun b hb => ?_, hmade, hnode⟩
    rcases List.mem_pair.1 hb with rfl | rfl
    · exact hbefore _ (List.mem_singleton_self _)
    · exact hcall
  | first :: second :: others, h =>
    have hadd : d.add (.parallel (first :: second :: others)) =
      (d.nodes.length, ⟨d.nodes ++ [.parallel (first :: second :: others)], d.made⟩) := rfl
    obtain ⟨hext, hgroup, hmade, hgrounded'⟩ := add_right hadd
    obtain ⟨hext', hnode, hmade', hgrounded''⟩ := add_right h
    refine ⟨hext.trans hext', hgrounded'' (hgrounded' hgrounded hbefore) fun b hb => ?_,
      hmade'.trans hmade, _, hext'.getElem? hgroup, hnode⟩
    rcases List.mem_pair.1 hb with rfl | rfl
    · exact (List.getElem?_eq_some_iff.1 hgroup).1
    · exact Nat.lt_of_lt_of_le hcall hext.nodes.length_le

theorem find?_remember (d : Draft) (i a j : Nat) :
    (d.remember i a).find? j = if j = i then some a else d.find? j := by
  rw [find?, remember, List.lookup_cons]
  by_cases heq : j = i
  · rw [if_pos heq, beq_iff_eq.2 heq]
  · rw [if_neg heq, beq_eq_false_iff_ne.2 heq]
    rfl

/-- The node of a producer that had none is remembered. -/
theorem Right.remember (h : d.Right ps deps) (hnew : d.find? i = none)
    (hstands : d.Stands ps deps i a) :
    d.Extends (d.remember i a) ∧ (d.remember i a).Right ps deps := by
  have hext : d.Extends (d.remember i a) := by
    refine ⟨List.prefix_refl _, fun {j b} hj => ?_⟩
    have hne : j ≠ i := by
      rintro rfl
      cases hnew.symm.trans hj
    rw [find?_remember, if_neg hne]
    exact hj
  refine ⟨hext, h.grounded, fun {j b} hj => ?_⟩
  -- what was remembered before still stands, since the node is new and nodes are only added
  rw [find?_remember] at hj
  split at hj
  · next heq =>
    cases hj
    exact heq ▸ hext.stands hstands
  · exact hext.stands (h.stands hj)

/-! ## Laying out -/

/-- What laying out producers comes to: a draft that has more, and has a node for each of them. -/
structure Laid (ps : List Producer) (deps : Deps) (d : Draft) (is : List Nat)
    (out : List Nat × Draft) : Prop where
  extend : d.Extends out.2
  right : out.2.Right ps deps
  found : is.map out.2.find? = out.1.map some
  fresh : ∀ {j : Nat}, d.find? j = none →
    (∀ i ∈ is, ¬ Relation.ReflTransGen deps.Edge i j) → out.2.find? j = none

/-- One more producer in front of those that are laid out. -/
theorem Laid.cons {is : List Nat} {out : List Nat × Draft} (hcd : c.Extends d)
    (hfresh : ∀ {j : Nat}, c.find? j = none → ¬ Relation.ReflTransGen deps.Edge i j →
      d.find? j = none)
    (hi : d.find? i = some a) (h : Laid ps deps d is out) :
    Laid ps deps c (i :: is) (a :: out.1, out.2) where
  extend := hcd.trans h.extend
  right := h.right
  found := List.cons_eq_cons.2 ⟨h.extend.find? hi, h.found⟩
  fresh hj hnot := h.fresh (hfresh hj (hnot i List.mem_cons_self))
    fun k hk => hnot k (List.mem_cons_of_mem i hk)

theorem lay_right (hacyclic : deps.Acyclic) {free is : List Nat} (h : d.Right ps deps)
    (hfree : ∀ i ∈ is, ∀ j, Relation.ReflTransGen deps.Edge i j → j ∈ free ∧ j < ps.length) :
    Laid ps deps d is (lay ps deps free d is) := by
  fun_induction lay ps deps free d is with
  | case1 free d => exact ⟨.refl d, h, rfl, fun hj _ => hj⟩
  | case2 free d i rest address hi others e hlay ih =>
    have hothers := ih h fun j hj => hfree j (List.mem_cons_of_mem i hj)
    rw [hlay] at hothers
    exact hothers.cons (.refl d) (fun hj _ => hj) hi
  | case3 free d i rest p hp hi hmem call d₁ hadd before d₂ hbelow address d₃ hfollow others d₄
      hrest ih₁ ih₂ =>
    obtain ⟨hext₁, hcall₁, hmade₁, hgrounded₁⟩ := add_right hadd
    have hright₁ : d₁.Right ps deps := h.of_extends hext₁
      (hgrounded₁ h.grounded fun b hb => absurd hb List.not_mem_nil) hmade₁
    have hinner : Laid ps deps d₁ (deps.of i) (before, d₂) := by
      rw [← hbelow]
      refine ih₁ hright₁ fun e he j hej => ?_
      -- the walk to the dependencies has no use for the producer itself
      have hij : deps.Below i j := .head' he hej
      obtain ⟨hin, hlt⟩ := hfree i List.mem_cons_self j hij.to_reflTransGen
      have hne : j ≠ i := by
        rintro rfl
        exact hacyclic j hij
      exact ⟨(List.mem_erase_of_ne hne).2 hin, hlt⟩
    have hcall : d₂.nodes[call]? = some (.call p) := hinner.extend.getElem? hcall₁
    obtain ⟨hext₃, hgrounded₃, hmade₃, hfollows⟩ := follow_right hfollow hinner.right.grounded
      (List.getElem?_eq_some_iff.1 hcall).1 fun b hb => by
        have hfound : some b ∈ (deps.of i).map d₂.find? := hinner.found ▸ List.mem_map_of_mem hb
        obtain ⟨e, -, he⟩ := List.mem_map.1 hfound
        exact hinner.right.lt_of_find? he
    have hfresh : ∀ {j : Nat}, d.find? j = none → ¬ deps.Below i j → d₃.find? j = none := by
      intro j hj hnot
      rw [find?, hmade₃]
      refine hinner.fresh ?_ fun e he hej => hnot (.head' he hej)
      rwa [find?, hmade₁]
    obtain ⟨hext₄, hright₄⟩ := (hinner.right.of_extends hext₃ hgrounded₃ hmade₃).remember
      (hfresh hi (hacyclic i))
      ⟨p, _, before, hp, hext₃.getElem? hcall, hext₃.map_find? hinner.found, hfollows⟩
    have hothers := ih₂ hright₄ fun j hj => hfree j (List.mem_cons_of_mem i hj)
    rw [hrest] at hothers
    refine hothers.cons (((hext₁.trans hinner.extend).trans hext₃).trans hext₄)
      (fun {j} hj hnot => ?_) ?_
    · have hne : j ≠ i := by
        rintro rfl
        exact hnot .refl
      rw [find?_remember, if_neg hne]
      exact hfresh hj fun hij => hnot hij.to_reflTransGen
    · rw [find?_remember, if_pos rfl]
  | case4 free d i rest p hp hi hmem ih =>
    exact absurd (hfree i List.mem_cons_self i .refl).1 hmem
  | case5 free d i rest hp hi ih =>
    rw [List.getElem?_eq_getElem (hfree i List.mem_cons_self i .refl).2] at hp
    cases hp

end Draft

end Gateway
