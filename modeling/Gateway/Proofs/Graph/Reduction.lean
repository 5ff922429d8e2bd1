import Gateway.Proofs.Graph.Walk

/-!
# Gateway.Proofs.Graph.Reduction — dropping what others imply

All implied dependencies are dropped at once, each because another one reaches it, and that one may
be dropped as well. Nothing is lost all the same: above whatever is dropped stands a dependency of
the same node that is kept. The induction is on how far a dependency is from its node in rank.

To drop them one after the other would make the proof easy, since each time there is one left that
reaches what was dropped, with nothing gone on the way. But it would be another program. Here the
witness for dropping one dependency may itself be dropped, and so may be what leads from it to the
other one, at any depth. `exists_kept` goes on from a witness to the one that it was dropped for, until
there is one that is kept, and `below_reduce` mends the path below that by an induction on the rank of
the node.
-/

set_option autoImplicit false

namespace Gateway

namespace Deps

variable {deps : Deps} {rank : Nat → Nat}

theorem of_reduce (deps : Deps) (i : Nat) :
    deps.reduce.of i = essential deps.reach (deps.of i) := by
  unfold of reduce
  rw [List.getElem?_map]
  cases deps[i]? with
  | some direct => rfl
  | none => rfl

/-- A node keeps some of its dependencies, in the order in which they were. -/
theorem sublist_reduce (deps : Deps) (i : Nat) : (deps.reduce.of i).Sublist (deps.of i) := by
  rw [of_reduce]
  exact List.filter_sublist

theorem mem_of_mem_reduce {i d : Nat} (h : d ∈ deps.reduce.of i) : d ∈ deps.of i :=
  (sublist_reduce deps i).subset h

theorem Ranked.reduce (h : deps.Ranked rank) : deps.reduce.Ranked rank := fun i d hd =>
  h i d (mem_of_mem_reduce hd)

/-- A dependency is kept unless it is below another one of the same node. -/
theorem mem_reduce (hrange : deps.InRange) (hacyclic : deps.Acyclic) {i d : Nat} :
    d ∈ deps.reduce.of i ↔ d ∈ deps.of i ∧ ∀ other ∈ deps.of i, ¬ deps.Below other d := by
  have hreach : ∀ other ∈ deps.of i,
      (deps.reach.of other).contains d = true ↔ deps.Below other d := fun other hother =>
    List.contains_iff_mem.trans (mem_reach hrange hacyclic (hrange i other hother))
  rw [of_reduce, essential, List.mem_filter, Bool.not_eq_true', List.any_eq_false]
  refine and_congr_right fun _ => forall₂_congr fun other hother => not_congr ?_
  rw [Bool.and_eq_true_iff, hreach other hother, decide_eq_true_iff]
  -- nothing is below itself
  exact and_iff_right_of_imp fun hbelow heq => hacyclic d (heq ▸ hbelow)

/-- A node keeps some dependency that is, or reaches, a given one. -/
theorem exists_kept (hrange : deps.InRange) (hrank : deps.Ranked rank) {i d : Nat}
    (hd : d ∈ deps.of i) :
    ∃ e ∈ deps.reduce.of i, Relation.ReflTransGen deps.Edge e d := by
  by_cases hkept : ∀ other ∈ deps.of i, ¬ deps.Below other d
  · exact ⟨d, (mem_reduce hrange hrank.acyclic).2 ⟨hd, hkept⟩, .refl⟩
  · -- what implies `d` may be dropped too, but it is nearer to `i`
    simp only [not_forall, not_not] at hkept
    obtain ⟨other, hother, hbelow⟩ := hkept
    have hlt : rank d < rank other := hrank.lt_of_below hbelow
    have hlt' : rank other < rank i := hrank i other hother
    obtain ⟨e, he, hreach⟩ := exists_kept hrange hrank hother
    exact ⟨e, he, hreach.trans hbelow.to_reflTransGen⟩
termination_by rank i - rank d
decreasing_by omega

/-- What is below a node stays below it when implied dependencies are dropped. -/
theorem below_reduce (hrange : deps.InRange) (hrank : deps.Ranked rank) {i j : Nat} :
    deps.reduce.Below i j ↔ deps.Below i j := by
  constructor
  · intro hij
    induction hij with
    | single hd => exact .single (mem_of_mem_reduce hd)
    | tail _ hd ih => exact .tail ih (mem_of_mem_reduce hd)
  · intro hij
    obtain ⟨d, hd, hdj⟩ := Relation.TransGen.head'_iff.1 hij
    obtain ⟨e, he, hed⟩ := exists_kept hrange hrank hd
    have hlt : rank e < rank i := hrank i e (mem_of_mem_reduce he)
    rcases (Relation.reflTransGen_iff_eq_or_transGen.1 (hed.trans hdj)) with rfl | hej
    · exact .single he
    · exact .head he ((below_reduce hrange hrank).2 hej)
termination_by rank i

end Deps

end Gateway
