import Gateway.Proofs.Graph.Layout
import Gateway.Proofs.Run.Ensemble

/-!
# Gateway.Proofs.Graph.Ensemble — the ensemble of a graph

In a sound graph a producer needs those that it depends on. The plan of a producer has the plans of
the dependencies that were kept in its first step; every other dependency is needed by one of these,
so the call in the second step is guarded. The branches of the whole plan are those of the producers
that no other depends on, and these need, directly or not, all the others.

What is said of runs is said of ensembles: some producers, each of which needs others, and plans that
call a producer only behind all that it needs. An ensemble knows of no references, reductions and
nodes. So this is the only place where it is shown that the compiler's plans respect the dependencies,
and a compiler that laid them out otherwise would have to be followed up to here and no further.

It is not plain that the reduced plan does. The plan of a producer waits for the dependencies that are
left, and results of the others have to be there, too. They are, because they stand under one that is
left, and whoever is done has all done that stands under it (`Sound.exists_kept`).
-/

set_option autoImplicit false

namespace Gateway

namespace Graph

/-- The producers that a producer depends on. -/
def needs (g : Graph) (p : Producer) : List Producer :=
  g.producers.filter fun q => (g.deps.of p.id).contains q.id

variable {g : Graph}

theorem Sound.place (h : g.Sound) {p : Producer} (hp : p ∈ g.producers) :
    g.producers[p.id]? = some p := by
  obtain ⟨i, hi⟩ := List.getElem?_of_mem hp
  rw [h.id hi, hi]

/-- The producers of a sound graph as an ensemble. -/
def Sound.ensemble (h : g.Sound) : Ensemble where
  producers := g.producers
  distinct {p q} hp hq heq := by
    rcases heq with hid | hname
    · have hplace := h.place hp
      rw [hid, h.place hq] at hplace
      exact (Option.some.inj hplace).symm
    · exact List.inj_on_of_nodup_map h.names hp hq hname
  needs := g.needs
  needs_mem _ hq := (List.mem_filter.1 hq).1

theorem Sound.mem_needs (h : g.Sound) {p q : Producer} :
    q ∈ h.ensemble.needs p ↔ q ∈ g.producers ∧ q.id ∈ g.deps.of p.id := by
  show q ∈ List.filter _ _ ↔ _
  rw [List.mem_filter, List.contains_iff_mem]

theorem Sound.mem_needs_iff (h : g.Sound) {p q : Producer} (hp : p ∈ g.producers) :
    q ∈ h.ensemble.needs p ↔
      q ∈ g.producers ∧ q.name ∈ p.requestReferences ++ p.responseReferences := by
  rw [h.mem_needs]
  exact and_congr_right fun hq => h.deps hp hq

theorem Sound.exists_producer (h : g.Sound) {i : Nat} (hi : i < g.deps.length) :
    ∃ p ∈ g.producers, p.id = i := by
  rw [h.length] at hi
  exact ⟨_, List.getElem_mem hi, h.id (List.getElem?_eq_getElem hi)⟩

theorem Sound.of_mem_terminals (h : g.Sound) {i : Nat} (hi : i ∈ g.deps.terminals) :
    ∃ t ∈ g.producers, t.id = i :=
  h.exists_producer (List.mem_range.1 (List.mem_filter.1 hi).1)

theorem Sound.mem_of_edge (h : g.Sound) {i d : Nat} (hd : d ∈ g.deps.of i) :
    ∃ q ∈ g.producers, q.id = d :=
  h.exists_producer (h.range i d hd)

/-- What is below a node is under its producer. -/
theorem Sound.under_of_edges (h : g.Sound) {p q : Producer} (hp : p ∈ g.producers)
    (hq : q ∈ g.producers) {i j : Nat} (hi : p.id = i) (hj : q.id = j)
    (hij : Relation.ReflTransGen g.deps.Edge i j) : h.ensemble.Under p q := by
  induction hij generalizing q with
  | refl => exact h.ensemble.eq_of_id hp hq (hi.trans hj.symm) ▸ .refl
  | tail _ hedge ih =>
    obtain ⟨r, hr, hrid⟩ := h.exists_producer (Deps.lt_length_of_mem hedge)
    refine (ih hr hrid).tail (h.mem_needs.2 ⟨hq, ?_⟩)
    rw [hj, hrid]
    exact hedge

/-- What a producer needs is under one of the dependencies that were kept. -/
theorem Sound.exists_kept (h : g.Sound) {p q : Producer} (hq : q ∈ h.ensemble.needs p) :
    ∃ e ∈ g.producers, e.id ∈ g.deps.reduce.of p.id ∧ h.ensemble.Under e q := by
  obtain ⟨rank, bound, hrank, -⟩ := h.ranked
  obtain ⟨hmem, hedge⟩ := h.mem_needs.1 hq
  obtain ⟨i, hi, hreach⟩ := Deps.exists_kept h.range hrank hedge
  obtain ⟨e, he, rfl⟩ := h.mem_of_edge (Deps.mem_of_mem_reduce hi)
  exact ⟨e, he, hi, h.under_of_edges he hmem rfl rfl hreach⟩

/-- The plans of the graph, each with the name of its producer. -/
structure Plans (h : g.Sound) (plan : Nat → Plan) : Prop where
  eq : ∀ {i : Nat} {p : Producer}, g.producers[i]? = some p →
    plan i = planAfter p ((g.deps.reduce.of i).map plan)
  root : g.plan = .parallel (g.deps.terminals.map plan)

namespace Plans

variable {h : g.Sound} {plan : Nat → Plan}

theorem of_placed {call node : Nat → Nat} (hplaced : g.Placed call node) :
    Plans h fun i => g.nodes.plan (node i) :=
  have ⟨heq, hroot⟩ := hplaced.layout h.grounded
  ⟨heq, hroot⟩

/-- A plan is the call of its producer, perhaps behind a first step. That step is guarded when the
plans of the kept dependencies are, and yields results of these. -/
theorem cases (hplan : Plans h plan) {p : Producer} (hp : p ∈ g.producers) :
    (g.deps.reduce.of p.id = [] ∧ plan p.id = .call p) ∨
    ∃ first, plan p.id = .sequence [first, .call p] ∧
      first.names = Plan.allNames ((g.deps.reduce.of p.id).map plan) ∧
      first.calls = Plan.allCalls ((g.deps.reduce.of p.id).map plan) ∧
      (∀ known, h.ensemble.GuardedAll known ((g.deps.reduce.of p.id).map plan) →
        h.ensemble.Guarded known first) := by
  rw [hplan.eq (h.place hp)]
  match g.deps.reduce.of p.id with
  | [] => exact .inl ⟨rfl, rfl⟩
  | [d] =>
    refine .inr ⟨plan d, rfl, ?_, ?_, fun known hguarded => hguarded.1.1⟩
    · exact (List.append_nil _).symm
    · exact (List.append_nil _).symm
  | d :: e :: rest => exact .inr ⟨.parallel ((d :: e :: rest).map plan), rfl, rfl, rfl, fun _ => id⟩

theorem names (hplan : Plans h plan) {p : Producer} (hp : p ∈ g.producers) :
    (plan p.id).names = [p.name] := by
  rcases hplan.cases hp with ⟨-, heq⟩ | ⟨first, heq, -⟩
  · rw [heq]
    rfl
  · rw [heq]
    rfl

theorem mem_allNames (hplan : Plans h plan) {ids : List Nat} {name : String}
    (hids : ∀ d ∈ ids, d < g.deps.length) :
    name ∈ Plan.allNames (ids.map plan) ↔ ∃ q ∈ g.producers, q.id ∈ ids ∧ q.name = name := by
  induction ids with
  | nil => simp [Plan.allNames]
  | cons d rest ih =>
    obtain ⟨q, hq, rfl⟩ := h.exists_producer (hids d List.mem_cons_self)
    have ih := ih fun e he => hids e (List.mem_cons_of_mem _ he)
    rw [List.map_cons, Plan.allNames, List.mem_append, ih, hplan.names hq, List.mem_singleton]
    constructor
    · rintro (rfl | ⟨r, hr, hid, hname⟩)
      · exact ⟨q, hq, List.mem_cons_self, rfl⟩
      · exact ⟨r, hr, List.mem_cons_of_mem _ hid, hname⟩
    · rintro ⟨r, hr, hid, rfl⟩
      rcases List.mem_cons.1 hid with hid | hid
      · exact .inl (congrArg _ (h.ensemble.eq_of_id hr hq hid))
      · exact .inr ⟨r, hr, hid, rfl⟩

theorem mem_allCalls {ids : List Nat} {d : Nat} (hd : d ∈ ids) {p : Producer}
    (hp : p ∈ (plan d).calls) : p ∈ Plan.allCalls (ids.map plan) := by
  induction ids with
  | nil => exact absurd hd List.not_mem_nil
  | cons e rest ih =>
    rcases List.mem_cons.1 hd with rfl | hd
    · exact List.mem_append_left _ hp
    · exact List.mem_append_right _ (ih hd)

theorem guarded (hplan : Plans h plan) {rank : Nat → Nat} (hrank : g.deps.Ranked rank)
    (known : Producer → Prop) {p : Producer} (hp : p ∈ g.producers) :
    h.ensemble.Guarded known (plan p.id) := by
  have hkept : ∀ d ∈ g.deps.reduce.of p.id, d ∈ g.deps.of p.id := fun _ =>
    Deps.mem_of_mem_reduce
  rcases hplan.cases hp with ⟨hnone, heq⟩ | ⟨first, heq, hnames, -, hfirst⟩
  · -- whoever needs anything has a dependency that was kept
    rw [heq]
    refine ⟨hp, fun q hq => ?_⟩
    obtain ⟨e, -, he, -⟩ := h.exists_kept hq
    rw [hnone] at he
    exact absurd he List.not_mem_nil
  · have hname : ∀ name, name ∈ first.names ↔
        ∃ q ∈ g.producers, q.id ∈ g.deps.reduce.of p.id ∧ q.name = name := fun name => by
      rw [hnames, hplan.mem_allNames fun d hd => h.range _ d (hkept d hd)]
    have hall : h.ensemble.GuardedAll known ((g.deps.reduce.of p.id).map plan) := by
      refine Ensemble.guardedAll_iff.2 fun branch hbranch => ?_
      obtain ⟨d, hd, rfl⟩ := List.mem_map.1 hbranch
      have hlt := hrank p.id d (hkept d hd)
      obtain ⟨q, hq, rfl⟩ := h.mem_of_edge (hkept d hd)
      refine ⟨hplan.guarded hrank known hq, ?_⟩
      rw [hplan.names hq]
      exact List.cons_ne_nil _ _
    -- what was dropped as implied is under something that was kept
    have hsecond : h.ensemble.Ready (h.ensemble.After known first.names) p := by
      refine ⟨hp, fun q hq => .inr ?_⟩
      obtain ⟨e, he, hid, hunder⟩ := h.exists_kept hq
      exact ⟨e, he, (hname e.name).2 ⟨e, he, hid, rfl⟩, hunder⟩
    have hneeds : ∀ name ∈ first.names, ∃ d ∈ h.ensemble.needs p, d.name = name := by
      intro name hmem
      obtain ⟨q, hq, hid, hqname⟩ := (hname name).1 hmem
      exact ⟨q, h.mem_needs.2 ⟨hq, hkept _ hid⟩, hqname⟩
    rw [heq]
    exact ⟨hfirst known hall, hsecond, hneeds⟩
termination_by rank p.id

theorem mem_calls (hplan : Plans h plan) {rank : Nat → Nat} (hrank : g.deps.Ranked rank)
    {p q : Producer} (hp : p ∈ g.producers) (hpq : h.ensemble.Under p q) :
    q ∈ (plan p.id).calls := by
  rcases Relation.ReflTransGen.cases_head hpq with rfl | ⟨d, hd, hdq⟩
  · rcases hplan.cases hp with ⟨-, heq⟩ | ⟨first, heq, -⟩
    · rw [heq]
      exact List.mem_singleton_self _
    · rw [heq]
      exact List.mem_append_right _ (List.mem_append_left _ (List.mem_singleton_self _))
  · -- the way to `q` may begin with a dependency that was dropped: take the one that implies it
    obtain ⟨e, he, hid, hed⟩ := h.exists_kept hd
    have hlt := hrank p.id e.id (Deps.mem_of_mem_reduce hid)
    have hcall := hplan.mem_calls hrank he (hed.trans hdq)
    rcases hplan.cases hp with ⟨hnone, -⟩ | ⟨first, heq, -, hcalls, -⟩
    · rw [hnone] at hid
      exact absurd hid List.not_mem_nil
    · rw [heq]
      refine List.mem_append_left _ ?_
      rw [hcalls]
      exact mem_allCalls hid hcall
termination_by rank p.id

end Plans

namespace Sound

theorem exists_plans (h : g.Sound) : ∃ plan, Plans h plan := by
  obtain ⟨call, node, hplaced⟩ := h.exists_placed
  exact ⟨_, Plans.of_placed hplaced⟩

/-- Every producer is under one that no other depends on. -/
theorem exists_terminal (h : g.Sound) {p : Producer} (hp : p ∈ g.producers) :
    ∃ t ∈ g.producers, t.id ∈ g.deps.terminals ∧ h.ensemble.Under t p := by
  obtain ⟨rank, bound, hrank, hbound⟩ := h.ranked
  have hlt : p.id < g.deps.length := by
    rw [h.length]
    exact (List.getElem?_eq_some_iff.1 (h.place hp)).1
  obtain ⟨i, hi, hreach⟩ := Deps.exists_terminal hrank hbound hlt
  obtain ⟨t, ht, rfl⟩ := h.of_mem_terminals hi
  exact ⟨t, ht, hi, h.under_of_edges ht hp rfl rfl hreach⟩

/-- The plan of a sound graph yields the results of the producers that no other depends on. -/
theorem mem_names (h : g.Sound) {name : String} :
    name ∈ g.plan.names ↔ ∃ t ∈ g.producers, t.id ∈ g.deps.terminals ∧ t.name = name := by
  obtain ⟨plan, hplan⟩ := h.exists_plans
  rw [hplan.root]
  exact hplan.mem_allNames fun d hd => List.mem_range.1 (List.mem_filter.1 hd).1

theorem guarded (h : g.Sound) (known : Producer → Prop) : h.ensemble.Guarded known g.plan := by
  obtain ⟨plan, hplan⟩ := h.exists_plans
  obtain ⟨rank, bound, hrank, hbound⟩ := h.ranked
  rw [hplan.root]
  refine Ensemble.guardedAll_iff.2 fun branch hbranch => ?_
  obtain ⟨i, hi, rfl⟩ := List.mem_map.1 hbranch
  obtain ⟨t, ht, rfl⟩ := h.of_mem_terminals hi
  refine ⟨hplan.guarded hrank known ht, ?_⟩
  rw [hplan.names ht]
  exact List.cons_ne_nil _ _

theorem mem_calls (h : g.Sound) (p : Producer) : p ∈ g.plan.calls ↔ p ∈ h.ensemble.toRoster := by
  refine ⟨(h.guarded fun _ => False).mem_of_mem_calls, fun hp => ?_⟩
  obtain ⟨plan, hplan⟩ := h.exists_plans
  obtain ⟨rank, bound, hrank, hbound⟩ := h.ranked
  obtain ⟨t, ht, hid, hunder⟩ := h.exists_terminal hp
  rw [hplan.root]
  exact Plans.mem_allCalls hid (hplan.mem_calls hrank ht hunder)

end Sound

end Graph

end Gateway
