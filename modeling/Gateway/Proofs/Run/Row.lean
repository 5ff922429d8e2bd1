import Gateway.Proofs.Run.Moves
import Gateway.Proofs.Run.Weight

/-!
# Gateway.Proofs.Run.Row — who stands in the row

As long as a run is not cancelled, every task that has something to do stands in the row. So when the
row is empty nothing is left to do at this time: whoever is not finished waits for a call that is not
due, or for someone who does.

`Wakes` has it that everybody is told. Here the notices that a turn leaves are followed to their
addressees and into the row. A task that is not in the row has been told of nothing since its last turn,
and had nothing to do then (`Weight`), so its activity is one that waits.

What moves may be taken from is stated with what they do to the row and not with how they choose:
whoever has a turn leaves it, and nobody else does (`Stepped`). The queue that a run has is one way to do
this, and the proofs here do not know which task is first.

Whoever waits in the line of a cell waits for a call of another task. There is no circle of such waits
that the row would have to resolve, because who is at a call waits for nobody; it is shown where it is
needed, in `Schedule`.
-/

set_option autoImplicit false

namespace Gateway

open Activity (tasksWeight Heard TasksHeard)

namespace Work

/-- Every task that has something to do stands in the row. -/
structure Awake (w : Work) : Prop where
  calm : w.board.Calm
  numbered : Numbered w.tasks (↑w.root.inner + {0})
  heard : Heard w.board (fun n => .task n ∈ w.ready) 0 w.root

variable {s : Setting} {w v : Work} {x : Turn}

/-! ## The row -/

theorem mem_join {task : Nat} (h : x ∈ w.ready ∨ x = .task task) : x ∈ (w.join task).ready := by
  unfold join
  split
  · next hin =>
    rcases h with h | rfl
    · exact h
    · exact List.contains_iff_mem.1 hin
  · rcases h with h | rfl
    · exact List.mem_append_left _ h
    · exact List.mem_append_right _ (List.mem_singleton_self _)

theorem mem_joinAll {tasks : List Nat} (h : x ∈ w.ready ∨ ∃ n ∈ tasks, x = .task n) :
    x ∈ (w.joinAll tasks).ready := by
  induction tasks generalizing w with
  | nil =>
    rcases h with h | ⟨n, hn, -⟩
    · exact h
    · exact absurd hn List.not_mem_nil
  | cons task rest ih =>
    apply ih
    rcases h with h | ⟨n, hn, rfl⟩
    · exact .inl (mem_join (.inl h))
    · rcases List.mem_cons.1 hn with rfl | hn
      · exact .inl (mem_join (.inr rfl))
      · exact .inr ⟨n, hn, rfl⟩

/-- Who stands in the row stays there, and whoever a notice is for joins it. -/
theorem mem_passOn {task : Nat} {notices : List Notice}
    (h : x ∈ w.ready ∨ ∃ n ∈ w.addressees notices, x = .task n) :
    x ∈ (w.passOn task notices).ready := by
  refine mem_joinAll ?_
  rcases h with h | ⟨n, hn, rfl⟩
  · exact .inl (mem_joinAll (.inl h))
  · by_cases hself : n = task
    · exact .inr ⟨n, List.mem_filter.2 ⟨hn, decide_eq_true hself⟩, rfl⟩
    · exact .inl (mem_joinAll (.inr ⟨n, List.mem_filter.2 ⟨hn, decide_eq_true hself⟩, rfl⟩))

theorem mem_after {d : Desk} {root : Activity} {givenUp : List (Nat × Activity)}
    (h : x ∈ w.ready ∨ ∃ n, .wake n ∈ d.notices ∧ x = .task n) :
    x ∈ (w.after d root givenUp).ready := by
  refine mem_passOn (h.imp_right ?_)
  rintro ⟨n, hn, rfl⟩
  exact ⟨n, List.mem_flatMap.2 ⟨.wake n, hn, List.mem_singleton_self n⟩, rfl⟩

theorem ready_of_step? (h : w.step? s = none) : w.ready = [] := by
  have h := Option.map_eq_none_iff.1 h
  unfold next? at h
  split at h
  · split at h
    · next hnone => exact List.isEmpty_iff.1 hnone
    · cases h
  · split at h <;> cases h

/-! ## Turns -/

theorem awake_after {d : Desk} {root : Activity} {givenUp : List (Nat × Activity)}
    (hcalm : d.board.Calm) (hnumbered : Numbered d.tasks (↑root.inner + {0}))
    (hheard : Heard d.board (d.Told fun n => .task n ∈ w.ready) 0 root) :
    (w.after d root givenUp).Awake := by
  have hready : ∀ n, d.Told (fun n => .task n ∈ w.ready) n →
      .task n ∈ (w.after d root givenUp).ready := fun n hn =>
    mem_after (hn.imp_right fun hwake => ⟨n, hwake, rfl⟩)
  obtain ⟨ready, hafter⟩ := after_eq w d root givenUp
  rw [hafter] at hready ⊢
  exact ⟨hcalm, hnumbered, hheard.congr fun n _ hn => hready n hn⟩

/-- Before any plan is begun nobody has anything to do. -/
theorem awake_opening (hs : s.Answering) {b : Board} (hcalm : b.Calm) (plan : Plan) :
    (opening s b plan).Awake := by
  have hnumbered : Numbered 1 {0} :=
    ⟨Multiset.nodup_singleton 0, fun n hn => by rw [Multiset.mem_singleton.1 hn]; exact Nat.one_pos⟩
  have hheeds : Desk.Heeds (fun n => .task n ∈ (ofBoard s b).ready) {0} ((ofBoard s b).desk 0) 0
      (Run.start s ((ofBoard s b).desk 0) plan) := Run.heeds_start hs hcalm hnumbered
  exact awake_after hheeds.onward.calm hheeds.numbered hheeds.heard

/-- After the turn of a task it has done what it had to do. -/
theorem awake_take (hs : s.Answering) {task : Nat} (hcalm : w.board.Calm)
    (hnumbered : Numbered w.tasks (↑w.root.inner + {0}))
    (h : Heard w.board (fun n => .task n ∈ w.ready ∨ n = task) 0 w.root)
    (hgiven : w.givenUp = []) : (w.take s (.task task)).Awake := by
  have htold : Heard (w.desk task).board
      ((w.desk task).Told fun n => .task n ∈ w.ready ∨ n = (w.desk task).task) 0 w.root :=
    h.congr fun n _ hn => .inl hn
  have htaken := w.taken s (.task task)
  generalize w.take s (.task task) = v at htaken ⊢
  cases htaken with
  | root =>
    obtain ⟨honward, hnumbered', hheard⟩ :=
      Run.heeds_poll (d := w.desk 0) hs hcalm (Multiset.mem_singleton_self 0) hnumbered htold
    exact awake_after honward.calm hnumbered' hheard
  | branch hne =>
    obtain ⟨honward, hnumbered', hheard⟩ :=
      Run.heeds_visit (d := w.desk task) hs hcalm hne hnumbered htold
    rw [hgiven]
    exact awake_after honward.calm hnumbered' hheard

/-- A task whose turn leaves the work no lighter had nothing to do. -/
theorem awake_of_still (hs : s.Answering) {task : Nat} (hcalm : w.board.Calm)
    (hnumbered : Numbered w.tasks (↑w.root.inner + {0}))
    (h : Heard w.board (fun n => .task n ∈ w.ready ∨ n = task) 0 w.root)
    (hweight : w.root.weight ≤ (w.take s (.task task)).root.weight) : w.Awake := by
  refine ⟨hcalm, hnumbered, ?_⟩
  have htaken := w.taken s (.task task)
  generalize w.take s (.task task) = v at htaken hweight
  cases htaken with
  | root =>
    rw [afterRoot, root_after] at hweight
    have hnone := Run.notMem_of_numbered hnumbered (Multiset.mem_singleton_self 0)
    exact Run.heard_of_poll (d := w.desk 0) hcalm hnone h hweight
  | branch hne =>
    rw [root_after] at hweight
    exact Run.heard_of_visit (d := w.desk task) hs hcalm rfl hne hnumbered h hweight

theorem weight_of_live (hlive : w.board.cancelled = false) (hgiven : w.givenUp = []) :
    w.weight = w.root.weight + 1 := by
  rw [weight, hgiven, hlive]
  rfl

/-- Whosever turn is next, whoever has something to do after it stands in the row, unless the run is
cancelled. -/
theorem Awake.stepped {J : Discipline s} (hs : s.Answering) (hkept : J.Kept w) (h : w.Awake)
    (hstep : w.Stepped s v) (hlive : v.board.cancelled = false) : v.Awake := by
  obtain ⟨hcalm, hnumbered, hheard⟩ := h
  cases hstep with
  | @took turn ready burst hrow =>
    cases turn with
    | cancellation =>
      have htaken := Work.taken s { w with ready, burst } .cancellation
      generalize take s { w with ready, burst } .cancellation = v at htaken hlive ⊢
      cases htaken with
      | idle =>
        refine ⟨hcalm, hnumbered, hheard.congr fun n _ hn => ?_⟩
        exact (hrow _ hn).resolve_left (by simp)
      | cancellation => cases hlive
    | task n =>
      -- the task leaves the row with its turn, and counts as told until the turn is over
      refine awake_take hs hcalm hnumbered ?_ (hkept.givenUp_eq_nil hcalm.live)
      exact hheard.congr fun m _ hm => (hrow _ hm).symm.imp_right Turn.task.inj
  | @passed turn ready burst hrow hweight =>
    cases turn with
    | cancellation =>
      refine ⟨hcalm, hnumbered, hheard.congr fun n _ hn => ?_⟩
      exact (hrow _ hn).resolve_left (by simp)
    | task n =>
      have hgiven := hkept.givenUp_eq_nil hcalm.live
      have htold : Heard w.board (fun m => .task m ∈ ready ∨ m = n) 0 w.root :=
        hheard.congr fun m _ hm => (hrow _ hm).symm.imp_right Turn.task.inj
      have hu : J.Kept { w with ready, burst } := Discipline.kept_of_row hkept
      have htake : (take s { w with ready, burst } (.task n)).Awake :=
        awake_take hs hcalm hnumbered htold hgiven
      rw [weight_of_live htake.calm.live ((hu.take (.task n)).1.givenUp_eq_nil htake.calm.live),
        weight_of_live hcalm.live hgiven] at hweight
      exact awake_of_still hs hcalm hnumbered htold (Nat.le_of_succ_le_succ hweight)

end Work

/-! ## When time moves on -/

namespace Activity

variable {b : Board} {told told' : Nat → Prop}

mutual

/-- When nobody has anything to do no call is due. -/
theorem Heard.not_due {task : Nat} (hnone : ∀ n, ¬ told n) : ∀ {a : Activity},
    Heard b told task a → ∀ o ∈ a.ongoing, o.due.any (· ≤ b.now) = false
  | .finished _, _, _, ho => absurd ho List.not_mem_nil
  | .spawned _, _, _, ho => absurd ho List.not_mem_nil
  | .waiting _, _, _, ho => absurd ho List.not_mem_nil
  | .calling _, h, _, ho => List.mem_singleton.1 ho ▸ h.2.resolve_left (hnone task)
  | .stepping _ _ _ current _, h, o, ho => Heard.not_due hnone (a := current) h.2 o ho
  | .gathering _ _ _ _ _, h, o, ho => h.2.not_due hnone o ho

theorem TasksHeard.not_due (hnone : ∀ n, ¬ told n) : ∀ {tasks : List (Nat × Activity)},
    TasksHeard b told tasks → ∀ o ∈ tasksOngoing tasks, o.due.any (· ≤ b.now) = false
  | [], _, _, ho => absurd ho List.not_mem_nil
  | (_, _) :: _, h, o, ho => by
    rcases List.mem_append.1 ho with ho | ho
    · exact h.1.2.not_due hnone o ho
    · exact h.2.not_due hnone o ho

end

mutual

/-- When time moves on nobody but the tasks of the calls that come due has something to do. -/
theorem Heard.wait {task time : Nat} (hnone : ∀ n, ¬ told n) : ∀ {a : Activity},
    (∀ o ∈ a.ongoing, o.due.any (· ≤ time) = true → told' o.task) →
      Heard b told task a → Heard (b.wait time) told' task a
  | .finished _, _, _ => trivial
  | .spawned _, _, h => absurd h (hnone task)
  | .waiting _, _, h => .inl (h.resolve_right fun hsettled => hnone task hsettled.1)
  | .calling o, hdue, h => by
    refine ⟨h.1, ?_⟩
    have hnow := h.2.resolve_left (hnone task)
    cases ht : o.due.any (· ≤ time) with
    | true => exact .inl (h.1 ▸ hdue o (List.mem_singleton_self o) ht)
    | false =>
      refine .inr ?_
      cases hwhen : o.due with
      | none => rfl
      | some due =>
        rw [hwhen, Option.any_some, decide_eq_false_iff_not] at hnow ht
        exact decide_eq_false (by simp only [Board.wait]; omega)
  | .stepping _ _ _ current _, hdue, h => ⟨h.1, Heard.wait hnone (a := current) hdue h.2⟩
  | .gathering _ _ _ _ _, hdue, h =>
    ⟨.inr (h.1.resolve_left (hnone task)), h.2.wait hnone hdue⟩

theorem TasksHeard.wait {time : Nat} (hnone : ∀ n, ¬ told n) : ∀ {tasks : List (Nat × Activity)},
    (∀ o ∈ tasksOngoing tasks, o.due.any (· ≤ time) = true → told' o.task) →
      TasksHeard b told tasks → TasksHeard (b.wait time) told' tasks
  | [], _, _ => trivial
  | (_, _) :: _, hdue, h =>
    ⟨⟨h.1.1, h.1.2.wait hnone fun o ho => hdue o (List.mem_append_left _ ho)⟩,
      h.2.wait hnone fun o ho => hdue o (List.mem_append_right _ ho)⟩

end

end Activity

namespace Work

variable {s : Setting} {w : Work}

/-- Nobody has anything to do. -/
structure Quiet (w : Work) : Prop where
  calm : w.board.Calm
  numbered : Numbered w.tasks (↑w.root.inner + {0})
  heard : Heard w.board (fun _ => False) 0 w.root

theorem Awake.quiet (h : w.Awake) (hready : w.ready = []) : w.Quiet := by
  refine ⟨h.calm, h.numbered, h.heard.congr fun n _ hn => ?_⟩
  rw [hready] at hn
  exact List.not_mem_nil hn

theorem Quiet.advance (h : w.Quiet) (time : Nat) : (w.advance s time).Awake := by
  refine ⟨⟨h.calm.live, h.calm.kept⟩, h.numbered, ?_⟩
  refine h.heard.wait (fun _ => id) fun o ho hdue => List.mem_append_right _ ?_
  refine List.mem_map_of_mem (List.mem_mergeSort.2 (List.mem_filter.2 ⟨?_, hdue⟩))
  exact List.mem_append_left _ ho

end Work

end Gateway
