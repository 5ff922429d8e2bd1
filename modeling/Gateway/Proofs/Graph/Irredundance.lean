import Gateway.Proofs.Graph.Acceptance
import Gateway.Proofs.Graph.Shape

/-!
# Gateway.Proofs.Graph.Irredundance — no dependency too many and none too few

What is left of dependencies when they are reduced reaches all that they reach. Which nodes have
dependencies, and which others depend on, can be read off what is below what, so that this stays as
it is too. There is nothing left to drop: no dependency is below another one of the same node, and
whatever dependencies have the same nodes below each node have these among them.

The last words say why the reduction is the reduction. For a graph without circles there is one least
set of dependencies with the same reachability, and what a node keeps is in it. A reduction that
dropped nothing would satisfy all that is said of what is not lost; one that dropped everything would
leave no dependency below another. `Reduces` has both sides, and `mem_of_same_below` that no others
could do with less.

Dependencies have to be `Proper`: without circles, and each a list in increasing order, so that none
is named twice. In a circle two dependencies imply each other and both would be dropped. Those of a
graph that was built are proper (`proper_of_build`).
-/

set_option autoImplicit false

namespace Gateway

namespace Deps

variable {deps less : Deps}

/-- Dependencies as producers have them: of each node some nodes in increasing order, and in no
circle. -/
structure Proper (deps : Deps) : Prop where
  increasing : ∀ i, (deps.of i).Pairwise (· < ·)
  range : deps.InRange
  acyclic : deps.Acyclic

/-- Dependencies of which some are dropped, and none is missed. -/
structure Reduces (less deps : Deps) : Prop where
  length : less.length = deps.length
  /-- A node keeps some of its dependencies, in the order in which they were. -/
  sublist : ∀ i, (less.of i).Sublist (deps.of i)
  /-- From each node the same nodes can be reached. -/
  below : ∀ i j, less.Below i j ↔ deps.Below i j
  /-- No dependency that is kept can be reached through another one of the same node. -/
  apart : ∀ i, (less.of i).Pairwise fun d e =>
    ¬ Relation.ReflTransGen less.Edge d e ∧ ¬ Relation.ReflTransGen less.Edge e d
  /-- A node that has dependencies keeps some. -/
  kept : ∀ i, less.of i = [] ↔ deps.of i = []
  /-- The same nodes are depended on. -/
  referenced : ∀ d, d ∈ less.flatten ↔ d ∈ deps.flatten

/-! ## What can be read off what is below what -/

theorem of_eq_nil_iff {i : Nat} : deps.of i = [] ↔ ∀ j, ¬ deps.Below i j := by
  rw [List.eq_nil_iff_forall_not_mem]
  constructor
  · intro hnone j hij
    obtain ⟨d, hd, -⟩ := Relation.TransGen.head'_iff.1 hij
    exact hnone d hd
  · exact fun hnone d hd => hnone d (.single hd)

theorem mem_flatten_iff {d : Nat} : d ∈ deps.flatten ↔ ∃ i, deps.Below i d := by
  rw [mem_flatten]
  constructor
  · exact fun ⟨i, hi⟩ => ⟨i, .single hi⟩
  · rintro ⟨i, hid⟩
    obtain ⟨e, -, he⟩ := Relation.TransGen.tail'_iff.1 hid
    exact ⟨e, he⟩

/-! ## Reduction -/

/-- Where there is no circle the nodes have an order. -/
theorem Proper.exists_rank (h : deps.Proper) : ∃ rank, deps.Ranked rank := by
  cases horder : deps.finishOrder with
  | ok order =>
    obtain ⟨-, rank, hrank, -⟩ := exists_ranked horder
    exact ⟨rank, hrank⟩
  | error cycle =>
    have hself : ∀ i, ¬ deps.Edge i i := fun i hedge => h.acyclic i (.single hedge)
    obtain ⟨i, hcircle⟩ := (circle_of_finishOrder horder h.range hself).below
    exact absurd hcircle (h.acyclic i)

theorem Proper.below_reduce_iff (h : deps.Proper) {i j : Nat} :
    deps.reduce.Below i j ↔ deps.Below i j := by
  obtain ⟨rank, hrank⟩ := h.exists_rank
  exact below_reduce h.range hrank

/-- What is kept of a node's dependencies stands side by side. -/
theorem Proper.not_reaches (h : deps.Proper) {i d e : Nat} (hd : d ∈ deps.reduce.of i)
    (he : e ∈ deps.reduce.of i) (hne : d ≠ e) : ¬ Relation.ReflTransGen deps.reduce.Edge d e := by
  intro hreach
  rcases Relation.reflTransGen_iff_eq_or_transGen.1 hreach with heq | hbelow
  · exact hne heq.symm
  · exact ((mem_reduce h.range h.acyclic).1 he).2 d (mem_of_mem_reduce hd)
      (h.below_reduce_iff.1 hbelow)

/-- Reducing drops what can be dropped, and nothing that would be missed. -/
theorem reduces_of_proper (h : deps.Proper) : deps.reduce.Reduces deps where
  length := List.length_map _
  sublist := sublist_reduce deps
  below _ _ := h.below_reduce_iff
  apart i := ((h.increasing i).sublist (sublist_reduce deps i)).imp_of_mem fun hd he hlt =>
    ⟨h.not_reaches hd he (Nat.ne_of_lt hlt), h.not_reaches he hd (Nat.ne_of_gt hlt)⟩
  kept i := by simp only [of_eq_nil_iff, h.below_reduce_iff]
  referenced d := by simp only [mem_flatten_iff, h.below_reduce_iff]

/-- A chain in which the first node depends on all others: of these it keeps the next one. The last
one is below the second and the third, of which the third is dropped itself. -/
theorem reduces_of_chain :
    let deps : Deps := [[1, 2, 3], [2], [3], []]
    deps.Proper ∧ deps.reduce = [[1], [2], [3], []] ∧ deps.reduce.Reduces deps := by
  intro deps
  have hbetween : ∀ i d, d ∈ deps.of i → i < d ∧ d < 4 := by
    intro i d hd
    have hall : ∀ i < 4, ∀ d ∈ deps.of i, i < d ∧ d < 4 := by decide
    exact hall i (lt_length_of_mem hd) d hd
  have hrank : deps.Ranked (4 - ·) := fun i d hd => by
    obtain ⟨hlt, hlt'⟩ := hbetween i d hd
    show 4 - d < 4 - i
    omega
  have hproper : deps.Proper := by
    refine ⟨fun i => ?_, fun i d hd => (hbetween i d hd).2, hrank.acyclic⟩
    rcases Nat.lt_or_ge i 4 with hlt | hge
    · have hall : ∀ i < 4, (deps.of i).Pairwise (· < ·) := by decide
      exact hall i hlt
    · rw [of_eq_nil hge]
      exact .nil
  exact ⟨hproper, by cbv, reduces_of_proper hproper⟩

/-- Nothing less will do: dependencies that have the same nodes below each node have among them all
that reducing keeps. -/
theorem mem_of_same_below (h : deps.Proper) (hsame : ∀ i j, less.Below i j ↔ deps.Below i j)
    {i d : Nat} (hd : d ∈ deps.reduce.of i) : d ∈ less.of i := by
  obtain ⟨hdirect, hkept⟩ := (mem_reduce h.range h.acyclic).1 hd
  obtain ⟨e, he, hreach⟩ := Relation.TransGen.head'_iff.1 ((hsame i d).2 (.single hdirect))
  rcases Relation.reflTransGen_iff_eq_or_transGen.1 hreach with rfl | hbelow
  · exact he
  · -- `e` is below some other dependency, and `d` would be too
    obtain ⟨other, hother, hreach⟩ := Relation.TransGen.head'_iff.1 ((hsame i e).1 (.single he))
    exact absurd (((hsame e d).1 hbelow).trans_right hreach) (hkept other hother)

end Deps

namespace Graph

theorem ids_numbered (declared : List Producer) :
    (numbered declared).map (·.id) = List.range declared.length := by
  rw [numbered, List.map_map, List.range_eq_range', ← List.zipIdx_map_snd 0 declared]
  rfl

/-- The dependencies of producers that make a graph are proper ones. -/
theorem proper_of_build {declared : List Producer} {g : Graph} (h : build declared = .ok g) :
    g.deps.Proper := by
  obtain ⟨hproducers, -, -, hdeps, order, horder, -⟩ := build_eq_ok h
  obtain ⟨hrange, rank, hrank, -⟩ := Deps.exists_ranked horder
  refine ⟨fun i => ?_, hrange, hrank.acyclic⟩
  rw [hdeps, Deps.of, List.getElem?_map]
  cases g.producers[i]? with
  | none => exact .nil
  | some p =>
    -- ids are places, and dependencies are listed as they are declared
    have hids : (g.producers.map (·.id)).Pairwise (· < ·) := by
      rw [hproducers, ids_numbered]
      exact List.pairwise_lt_range
    exact hids.sublist (List.filter_sublist.map _)

end Graph

end Gateway
