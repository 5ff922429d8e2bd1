import Gateway.Graph.Order
import Mathlib.Data.List.Nodup
import Mathlib.Logic.Relation

/-!
# Gateway.Proofs.Graph.Walk — what the walks on dependency lists find

A depth-first walk that ends without a cycle lists every node after those it depends on: that order
is the *rank* along which all inductions on a graph go. Where there is no cycle the table that a
walk makes of what is below nodes is right at every moment, and in the end it knows of every node.

There are two walks. The first looks for circles and keeps the nodes that it has finished in order;
`visit_eq_ok` says what it keeps, and the rank of a node is its place in the list. A rank is all that is
remembered of it: who argues along dependencies uses that the rank falls, and has no need of lists.

The second makes a table, and reads what is below a node from it if the node was met before. `Right` is
its invariant, and it has two halves that need each other. That what the table says is right would not
do, because a node whose entry is missing some of what is below it would give wrong entries to the nodes
above. So an entry says all there is to say of its node, and this can be said of a new entry only when
the dependencies have theirs. They do because the walk goes to them first, and because it never meets a
node on its own path, where the entry would still be missing.
-/

set_option autoImplicit false

namespace Gateway

namespace Deps

variable {deps : Deps}

/-- A node depends on another. -/
def Edge (deps : Deps) (i d : Nat) : Prop := d ∈ deps.of i

/-- A node depends on another, directly or through others. -/
def Below (deps : Deps) : Nat → Nat → Prop := Relation.TransGen deps.Edge

def InRange (deps : Deps) : Prop := ∀ i d, d ∈ deps.of i → d < deps.length

theorem of_eq_nil {i : Nat} (h : deps.length ≤ i) : deps.of i = [] := by
  rw [of, List.getElem?_eq_none h]
  rfl

theorem lt_length_of_mem {i d : Nat} (h : d ∈ deps.of i) : i < deps.length := by
  rcases Nat.lt_or_ge i deps.length with hlt | hge
  · exact hlt
  · rw [of_eq_nil hge] at h
    exact absurd h List.not_mem_nil

/-! ## The order of a walk -/

/-- The first node of a list depends on nodes further down only, and so does each that follows. -/
def Ordered (deps : Deps) : List Nat → Prop
  | [] => True
  | i :: rest => (∀ d ∈ deps.of i, d ∈ rest) ∧ Ordered deps rest

/-- A walk that finds no cycle finishes what it was to walk to, and keeps the order. -/
theorem visit_eq_ok {free path done ds out : List Nat} (h : deps.visit free path done ds = .ok out)
    (hfree : free.Nodup) (hdone : done.Nodup) (hordered : deps.Ordered done) :
    deps.Ordered out ∧ out.Nodup ∧ done ⊆ out ∧ ds ⊆ out ∧ ∀ i ∈ out, i ∈ done ∨ i ∈ free := by
  fun_induction visit deps free path done ds generalizing out with
  | case1 free path done =>
    cases h
    exact ⟨hordered, hdone, List.Subset.refl _, List.nil_subset _, fun i hi => .inl hi⟩
  | case2 free path done d ds hmem ih =>
    obtain ⟨hord, hnodup, hsub, hds, hfrom⟩ := ih h hfree hdone hordered
    exact ⟨hord, hnodup, hsub, List.cons_subset.2 ⟨hsub hmem, hds⟩, hfrom⟩
  | case3 free path done d ds hmem hd done' hvisit ih₁ ih₂ =>
    obtain ⟨hord, hnodup, hsub, hdeps, hfrom⟩ := ih₁ hvisit (hfree.erase d) hdone hordered
    -- `d` itself is not free while its dependencies are walked to, so that it is not among them
    have hnew : d ∉ done' := fun hd' => by
      rcases hfrom d hd' with hd' | hd'
      · exact hmem hd'
      · exact ((hfree.mem_erase_iff).1 hd').1 rfl
    obtain ⟨hord', hnodup', hsub', hds, hfrom'⟩ :=
      ih₂ h hfree (List.nodup_cons.2 ⟨hnew, hnodup⟩) ⟨fun e he => hdeps he, hord⟩
    refine ⟨hord', hnodup', fun i hi => hsub' (List.mem_cons_of_mem d (hsub hi)),
      List.cons_subset.2 ⟨hsub' List.mem_cons_self, hds⟩, fun i hi => ?_⟩
    rcases hfrom' i hi with hi | hi
    · rcases List.mem_cons.1 hi with rfl | hi
      · exact .inr hd
      · exact (hfrom i hi).imp_right List.mem_of_mem_erase
    · exact .inr hi
  | case4 => cases h
  | case5 => cases h

/-- The finish order lists each node once, after those it depends on. -/
theorem finishOrder_eq_ok {order : List Nat} (h : deps.finishOrder = .ok order) :
    deps.Ordered order.reverse ∧ order.Nodup ∧ ∀ i, i ∈ order ↔ i < deps.length := by
  unfold finishOrder at h
  cases hvisit : deps.visit (.range deps.length) [] [] (.range deps.length) with
  | error cycle => simp only [hvisit] at h; cases h
  | ok out =>
    simp only [hvisit] at h
    cases h
    obtain ⟨hord, hnodup, -, hall, hfrom⟩ :=
      visit_eq_ok hvisit List.nodup_range List.nodup_nil trivial
    refine ⟨by rwa [List.reverse_reverse], List.nodup_reverse.2 hnodup, fun i => ?_⟩
    rw [List.mem_reverse]
    refine ⟨fun hi => ?_, fun hi => hall (List.mem_range.2 hi)⟩
    exact List.mem_range.1 ((hfrom i hi).resolve_left List.not_mem_nil)

/-- In an ordered list a node comes after the node that depends on it. -/
theorem Ordered.idxOf_lt {l : List Nat} (h : deps.Ordered l) (hnodup : l.Nodup) {i d : Nat}
    (hi : i ∈ l) (hd : d ∈ deps.of i) : d ∈ l ∧ l.idxOf i < l.idxOf d := by
  induction l with
  | nil => exact absurd hi List.not_mem_nil
  | cons j rest ih =>
    obtain ⟨hnot, hnodup⟩ := List.nodup_cons.1 hnodup
    rcases List.mem_cons.1 hi with rfl | hi
    · have hrest := h.1 d hd
      refine ⟨List.mem_cons_of_mem i hrest, ?_⟩
      have hne : i ≠ d := fun heq => hnot (heq ▸ hrest)
      rw [List.idxOf_cons_self, List.idxOf_cons_ne rest hne]
      exact Nat.succ_pos _
    · obtain ⟨hmem, hlt⟩ := ih h.2 hnodup hi
      refine ⟨List.mem_cons_of_mem j hmem, ?_⟩
      have hne : j ≠ i := fun heq => hnot (heq ▸ hi)
      have hne' : j ≠ d := fun heq => hnot (heq ▸ hmem)
      rw [List.idxOf_cons_ne rest hne, List.idxOf_cons_ne rest hne']
      exact Nat.succ_lt_succ hlt

/-- Numbers that fall along dependencies. -/
def Ranked (deps : Deps) (rank : Nat → Nat) : Prop :=
  ∀ i d, d ∈ deps.of i → rank d < rank i

/-- Without a cycle there is a rank, and all dependencies are nodes. -/
theorem exists_ranked {order : List Nat} (h : deps.finishOrder = .ok order) :
    deps.InRange ∧ ∃ rank, deps.Ranked rank ∧ ∀ i, rank i ≤ order.length := by
  obtain ⟨hord, hnodup, hall⟩ := finishOrder_eq_ok h
  have hrev : order.reverse.Nodup := List.nodup_reverse.2 hnodup
  have hstep : ∀ i d, d ∈ deps.of i →
      d ∈ order.reverse ∧ order.reverse.idxOf i < order.reverse.idxOf d := fun i d hd =>
    hord.idxOf_lt hrev (List.mem_reverse.2 ((hall i).2 (lt_length_of_mem hd))) hd
  -- the earlier a node is finished the lower it ranks, and dependencies are finished first
  refine ⟨fun i d hd => (hall d).1 (List.mem_reverse.1 (hstep i d hd).1),
    fun i => order.length - order.reverse.idxOf i, fun i d hd => ?_, fun i => Nat.sub_le _ _⟩
  obtain ⟨hmem, hlt⟩ := hstep i d hd
  have hbound : order.reverse.idxOf d < order.length := by
    have hlt := List.idxOf_lt_length_of_mem hmem
    rwa [List.length_reverse] at hlt
  show order.length - order.reverse.idxOf d < order.length - order.reverse.idxOf i
  omega

theorem Ranked.lt_of_below {rank : Nat → Nat} (h : deps.Ranked rank) {i j : Nat}
    (hij : deps.Below i j) : rank j < rank i := by
  induction hij with
  | single hd => exact h _ _ hd
  | tail _ hd ih => exact Nat.lt_trans (h _ _ hd) ih

/-- Above every node stands one that no node depends on. -/
theorem exists_terminal {rank : Nat → Nat} {bound : Nat} (h : deps.Ranked rank)
    (hbound : ∀ i, rank i ≤ bound) {i : Nat} (hi : i < deps.length) :
    ∃ t ∈ deps.terminals, Relation.ReflTransGen deps.Edge t i := by
  by_cases hterminal : i ∈ deps.flatten
  · -- go on from a node that depends on it, whose rank is higher
    obtain ⟨direct, hdirect, hmem⟩ := List.mem_flatten.1 hterminal
    obtain ⟨j, hj⟩ := List.getElem?_of_mem hdirect
    have hedge : i ∈ deps.of j := by
      rw [of, hj]
      exact hmem
    have hlt := h j i hedge
    have hle := hbound j
    obtain ⟨t, ht, hreach⟩ := exists_terminal h hbound (lt_length_of_mem hedge)
    exact ⟨t, ht, hreach.tail hedge⟩
  · refine ⟨i, List.mem_filter.2 ⟨List.mem_range.2 hi, ?_⟩, .refl⟩
    simpa using hterminal
termination_by bound - rank i

/-- No node is below itself. -/
def Acyclic (deps : Deps) : Prop := ∀ i, ¬ deps.Below i i

theorem Ranked.acyclic {rank : Nat → Nat} (h : deps.Ranked rank) : deps.Acyclic := fun _ hbelow =>
  Nat.lt_irrefl _ (h.lt_of_below hbelow)

/-! ## What is below a node -/

/-- All that a table says is right, and what it says of a node is all that there is to say. -/
def Right (deps : Deps) (known : Reach) : Prop :=
  ∀ i nodes, known.lookup i = some nodes → ∀ j, j ∈ nodes ↔ deps.Below i j

theorem Right.mem_of {known : Reach} (h : deps.Right known) {i : Nat}
    (hi : (known.lookup i).isSome) {j : Nat} : j ∈ known.of i ↔ deps.Below i j := by
  obtain ⟨nodes, hnodes⟩ := Option.isSome_iff_exists.1 hi
  rw [Reach.of, hnodes]
  exact h i nodes hnodes j

/-- From what is below its dependencies one has what is below a node. -/
theorem Right.mem_gather {known : Reach} (h : deps.Right known) {i : Nat}
    (hall : ∀ d ∈ deps.of i, (known.lookup d).isSome) {j : Nat} :
    j ∈ known.gather (deps.of i) ↔ deps.Below i j := by
  rw [Reach.gather, List.mem_eraseDups, List.mem_flatMap, Below, Relation.TransGen.head'_iff]
  refine exists_congr fun d => and_congr_right fun hd => ?_
  rw [List.mem_cons, h.mem_of (hall d hd), Relation.reflTransGen_iff_eq_or_transGen]
  rfl

theorem Right.cons {known : Reach} (h : deps.Right known) {i : Nat}
    (hall : ∀ d ∈ deps.of i, (known.lookup d).isSome) :
    deps.Right ((i, known.gather (deps.of i)) :: known) := by
  intro k nodes hlookup j
  rw [List.lookup_cons] at hlookup
  split at hlookup
  · next heq =>
    cases hlookup
    rw [h.mem_gather hall, eq_of_beq heq]
  · exact h k nodes hlookup j

/-- Whether a node is in the table. -/
theorem isSome_lookup_cons {known : Reach} {i k : Nat} {nodes : List Nat} :
    (((i, nodes) :: known : Reach).lookup k).isSome ↔ k = i ∨ (known.lookup k).isSome := by
  rw [List.lookup_cons]
  by_cases heq : k = i
  · rw [beq_iff_eq.2 heq]
    exact (iff_true_left rfl).2 (.inl heq)
  · rw [beq_eq_false_iff_ne.2 heq]
    exact (or_iff_right heq).symm

/-- A walk that never comes back to its own path knows all about the nodes of its list in the end,
and forgets nothing. What is below a node is free as long as the node is, so that it is not on the
path to it. -/
theorem explore_right (hacyclic : deps.Acyclic) {free ds : List Nat} {known : Reach}
    (h : deps.Right known)
    (hfree : ∀ d ∈ ds, ∀ j, Relation.ReflTransGen deps.Edge d j → j ∈ free) :
    deps.Right (deps.explore free known ds) ∧
      ∀ k, (known.lookup k).isSome ∨ k ∈ ds →
        ((deps.explore free known ds).lookup k).isSome := by
  fun_induction explore deps free known ds with
  | case1 free known => exact ⟨h, fun k hk => hk.resolve_right List.not_mem_nil⟩
  | case2 free known d ds hknown ih =>
    obtain ⟨hright, hall⟩ := ih h fun e he => hfree e (List.mem_cons_of_mem d he)
    refine ⟨hright, fun k hk => hall k ?_⟩
    rcases hk with hk | hk
    · exact .inl hk
    · rcases List.mem_cons.1 hk with rfl | hk
      · exact .inl hknown
      · exact .inr hk
  | case3 free known d ds hnew hd inner ih₁ ih₂ =>
    -- the walk to the dependencies of `d` has no use for `d` itself
    obtain ⟨hright, hall⟩ := ih₁ h fun e he j hej => by
      have hbelow : deps.Below d j := .head' he hej
      have hne : j ≠ d := fun heq => hacyclic d (heq ▸ hbelow)
      exact (List.mem_erase_of_ne hne).2 (hfree d List.mem_cons_self j hbelow.to_reflTransGen)
    obtain ⟨hright', hall'⟩ := ih₂ (hright.cons fun e he => hall e (.inr he))
      fun e he => hfree e (List.mem_cons_of_mem d he)
    refine ⟨hright', fun k hk => hall' k ?_⟩
    rw [isSome_lookup_cons]
    rcases hk with hk | hk
    · exact .inl (.inr (hall k (.inl hk)))
    · exact (List.mem_cons.1 hk).imp_left .inl
  | case4 free known d ds hnew hd ih =>
    exact absurd (hfree d List.mem_cons_self d .refl) hd

/-- Without a circle the table tells of each node what is below it. -/
theorem mem_reach (hrange : deps.InRange) (hacyclic : deps.Acyclic) {i j : Nat}
    (hi : i < deps.length) : j ∈ deps.reach.of i ↔ deps.Below i j := by
  have hin : ∀ d ∈ List.range deps.length, ∀ j, Relation.ReflTransGen deps.Edge d j →
      j ∈ List.range deps.length := by
    intro d hd j hdj
    cases hdj with
    | refl => exact hd
    | tail _ hedge => exact List.mem_range.2 (hrange _ _ hedge)
  have hempty : deps.Right [] := fun _ _ hlookup => nomatch hlookup
  obtain ⟨hright, hall⟩ := explore_right hacyclic hempty hin
  exact hright.mem_of (hall i (.inr (List.mem_range.2 hi)))

end Deps

end Gateway
