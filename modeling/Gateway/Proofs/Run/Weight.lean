import Gateway.Proofs.Run.Turns
import Gateway.Proofs.Run.Wakes

/-!
# Gateway.Proofs.Run.Weight — turns that achieve nothing

A turn that does not lower the weight of the work is dropped, and leaves no trace. Here it is shown
that nothing is lost by this: a task whose turn does not lower the weight had nothing to do. Plans
that are begun become lighter, so a turn that leaves the weight as it was has begun nothing, collected
nothing and found no result.

The weight is there to bring a run to its end, for it cannot fall for ever. But a measure that is part
of what runs do has to be justified like everything else: if there were a turn that did something and
did not lower it, the run would go on without it, and no statement about runs would be one about the
program. The statement is the contraposition, for an activity that has been told nothing but of its own
turn: if the weight stays, the activity has heard (`heard_of_poll`).

A turn reaches a task through the tasks that it is within, and those that are not on the way are left
as they are (`visit_of_notMem`). So the weight falls as a whole by what it falls in one place.
-/

set_option autoImplicit false

namespace Gateway

open Activity (tasksInner tasksWeight Heard TasksHeard)

namespace Run

variable {s : Setting} {d : Desk} {p : Producer}

theorem weight_invoke_le {cell : Bool} : (invoke s d p cell).2.weight ≤ 1 := by
  unfold invoke
  split
  · exact Nat.zero_le 1
  · simp only
    split
    · exact Nat.zero_le 1
    · split
      · exact Nat.zero_le 1
      · exact Nat.le_refl 1

theorem weight_request_lt : (request s d p).2.weight < (Plan.call p).weight := by
  have hcall : ∀ {out : Desk × Activity}, out.2.weight ≤ 1 → out.2.weight < 3 := fun h =>
    Nat.lt_of_le_of_lt h (by decide)
  unfold request
  split
  · exact Nat.zero_lt_succ 2
  · exact hcall weight_invoke_le
  · exact Nat.lt_succ_self 2
  · exact hcall weight_invoke_le

theorem weight_collect (d : Desk) (since : Nat) (names : List String)
    (collected arrived : List ProducerResult) (branches : List (Nat × Activity)) :
    (collect d since names collected arrived branches).2.weight = 0 ∨
      branches ≠ [] ∧
        (collect d since names collected arrived branches).2.weight = 1 + tasksWeight branches := by
  unfold collect
  show (if _ then _ else _ : Desk × Activity).2.weight = 0 ∨
    _ ∧ (if _ then _ else _ : Desk × Activity).2.weight = _
  split
  · exact .inl rfl
  · next hleft =>
    exact .inr ⟨fun hnil => hleft (by simp [hnil]), rfl⟩

theorem tasksWeight_spawn (plans : List Plan) :
    tasksWeight (d.spawn plans).2 = Plan.branchesWeight plans := by
  refine Discipline.spawned_induction
    (motive := fun plans tasks => tasksWeight tasks = Plan.branchesWeight plans) rfl
    (fun plan rest task tasks ih => ?_) d plans
  rw [tasksWeight, ih]
  rfl

/-- A step that is over leaves what weighs less than the steps after it, and any other step goes
on. -/
theorem weight_afterStep (since : Nat) (progressed : Bool) (names : List String)
    {steps : List Plan} {next : Desk → Desk × Activity}
    (hnext : ∀ e, (next e).2.weight < 1 + Plan.stepsWeight steps) (out : Desk × Activity) :
    (afterStep since progressed names steps next out).2.weight < 1 + Plan.stepsWeight steps ∨
      out.2.isFinished = false ∧
        (afterStep since progressed names steps next out).2.weight =
          1 + out.2.weight + Plan.stepsWeight steps := by
  have hzero : 0 < 1 + Plan.stepsWeight steps := Nat.lt_of_lt_of_le Nat.one_pos (Nat.le_add_right ..)
  obtain ⟨e, a⟩ := out
  cases a with
  | finished yield =>
    left
    cases yield with
    | panic message => exact hzero
    | results rs =>
      show (if _ then _ else _ : Desk × Activity).2.weight < _
      split
      · exact hzero
      · cases firstFailure? rs with
        | some f => exact hzero
        | none => exact hnext _
  | spawned | calling | waiting | stepping | gathering => exact .inr ⟨rfl, rfl⟩

mutual

theorem weight_start_lt : ∀ {d : Desk} {plan : Plan}, (start s d plan).2.weight < plan.weight
  | _, .call _ => weight_request_lt
  | _, .sequence _ => weight_startSteps_lt
  | d, .parallel branches => by
    have hweight : (Plan.parallel branches).weight = 2 + Plan.branchesWeight branches := rfl
    by_cases hnone : Plan.allNames branches = []
    · unfold start
      rw [if_pos (List.isEmpty_iff.2 hnone), hweight]
      exact Nat.lt_of_lt_of_le Nat.two_pos (Nat.le_add_right ..)
    · rw [Discipline.start_parallel d hnone, hweight]
      have hspawn := tasksWeight_spawn (d := d) branches
      rcases weight_collect (d.spawn branches).1 d.turn (Plan.allNames branches) [] []
        (d.spawn branches).2 with h | ⟨-, h⟩ <;> rw [h] <;> omega
  | _, .stub _ _ (some _) => Nat.one_pos
  | _, .stub _ _ none => Nat.one_pos

theorem weight_startSteps_lt : ∀ {d : Desk} {steps : List Plan} {progressed : Bool}
    {names : List String},
    (startSteps s d progressed names steps).2.weight < 1 + Plan.stepsWeight steps
  | _, [], _, _ => Nat.one_pos
  | d, step :: others, progressed, names => by
    have hweight : Plan.stepsWeight (step :: others) = step.weight + Plan.stepsWeight others := rfl
    unfold startSteps
    split
    · show 0 < _
      omega
    · have hnext : ∀ e, (startSteps s e true names others).2.weight < 1 + Plan.stepsWeight others :=
        fun e => weight_startSteps_lt
      rw [hweight]
      -- the first step is over within the turn, or has become lighter by being begun
      rcases weight_afterStep d.turn progressed names hnext (start s d step) with h | ⟨-, h⟩
      · exact Nat.lt_of_lt_of_le h (by omega)
      · rw [h]
        have hstep : (start s d step).2.weight < step.weight := weight_start_lt
        omega

end

theorem weight_pos_of_plan : ∀ plan : Plan, 0 < plan.weight
  | .call _ => Nat.zero_lt_succ 2
  | .sequence _ => Nat.lt_of_lt_of_le Nat.one_pos (Nat.le_add_right ..)
  | .parallel _ => Nat.lt_of_lt_of_le Nat.two_pos (Nat.le_add_right ..)
  | .stub .. => Nat.one_pos

theorem weight_pos {a : Activity} (h : a.isFinished = false) : 0 < a.weight := by
  cases a with
  | finished yield => cases h
  | spawned plan => exact weight_pos_of_plan plan
  | calling o => exact Nat.one_pos
  | waiting p => exact Nat.two_pos
  | stepping since progressed names current rest =>
    show 0 < 1 + current.weight + Plan.stepsWeight rest
    omega
  | gathering since names collected arrived branches =>
    show 0 < 1 + (if arrived.isEmpty then 0 else 1) + tasksWeight branches
    omega

/-- Who goes on and does not become lighter had nothing to do. -/
theorem heard_of_poll {told : Nat → Prop} {task : Nat} (hcalm : d.board.Calm) :
    ∀ {a : Activity}, task ∉ a.inner → Heard d.board (fun n => told n ∨ n = task) task a →
      a.weight ≤ (poll s d a).2.weight → Heard d.board told task a
  | .finished _, _, _, _ => trivial
  | .spawned _, _, _, hweight => absurd weight_start_lt (Nat.not_lt.2 hweight)
  | .calling o, _, h, hweight => by
    refine ⟨h.1, .inr ?_⟩
    cases hdue : o.due.any (· ≤ d.board.now) with
    | false => rfl
    | true =>
      have hzero : (poll s d (.calling o)).2.weight = 0 := by
        simp only [poll, pollCall, hcalm.live, hdue, Bool.false_eq_true, if_false, if_true]
        rfl
      rw [hzero] at hweight
      exact absurd hweight (Nat.not_le.2 Nat.one_pos)
  | .waiting p, _, h, hweight => by
    rcases h with hline | ⟨-, r, hcell⟩
    · exact .inl hline
    · have hzero : (poll s d (.waiting p)).2.weight = 0 := by
        simp only [poll, recheck, hcell]
        rfl
      rw [hzero] at hweight
      exact absurd hweight (Nat.not_le.2 Nat.two_pos)
  | .stepping since progressed names current rest, hnone, h, hweight => by
    have hworking : (Activity.stepping since progressed names current rest).weight =
        1 + current.weight + Plan.stepsWeight rest := rfl
    unfold poll at hweight
    rw [if_neg (by simp [hcalm.live]), hworking] at hweight
    have hnext : ∀ e, (startSteps s e true names rest).2.weight < 1 + Plan.stepsWeight rest :=
      fun e => weight_startSteps_lt
    refine ⟨h.1, heard_of_poll hcalm (a := current) hnone h.2 ?_⟩
    rcases weight_afterStep since progressed names hnext (poll s d current) with hlt | ⟨-, heq⟩
    · omega
    · rw [heq] at hweight
      omega
  | .gathering since names collected arrived branches, hnone, h, hweight => by
    have hworking : (Activity.gathering since names collected arrived branches).weight =
        1 + (if arrived.isEmpty then 0 else 1) + tasksWeight branches := rfl
    unfold poll at hweight
    rw [hworking] at hweight
    refine ⟨.inr ?_, h.2.drop hnone⟩
    rcases weight_collect d since names collected arrived branches with hzero | ⟨hne, heq⟩
    · omega
    · rw [heq] at hweight
      cases arrived with
      | nil => exact ⟨rfl, hne⟩
      | cons r rs =>
        simp only [List.isEmpty_cons, Bool.false_eq_true, if_false] at hweight
        omega

/-! ## Turns of branches -/

mutual

/-- Whose turn is not that of a branch within the activity leaves it alone, and wakes someone at
most. -/
theorem visit_of_notMem : ∀ {d : Desk} (owner : Nat) {a : Activity}, d.task ∉ a.inner →
    ∃ notices, visit s d owner a = ({ d with notices }, a)
  | d, _, .finished _, _ | d, _, .spawned _, _ | d, _, .calling _, _ | d, _, .waiting _, _ =>
    ⟨d.notices, rfl⟩
  | d, owner, .stepping _ _ _ current _, hnone => by
    obtain ⟨notices, heq⟩ := visit_of_notMem owner (a := current) hnone
    refine ⟨notices, ?_⟩
    unfold visit
    rw [heq]
  | d, owner, .gathering _ _ _ _ _, hnone => by
    obtain ⟨notices, heq⟩ := visitBranches_of_notMem hnone
    unfold visit
    rw [heq]
    simp only [List.append_nil]
    split
    · exact ⟨notices, rfl⟩
    · exact ⟨_, rfl⟩

theorem visitBranches_of_notMem : ∀ {d : Desk} {tasks : List (Nat × Activity)},
    d.task ∉ tasksInner tasks → ∃ notices, visitBranches s d tasks = ({ d with notices }, [], tasks)
  | d, [], _ => ⟨d.notices, rfl⟩
  | d, (task, a) :: others, hnone => by
    rw [tasksInner, List.mem_cons, not_or, List.mem_append, not_or] at hnone
    obtain ⟨hne, ha, hothers⟩ := hnone
    obtain ⟨notices, heq⟩ := visit_of_notMem task ha
    obtain ⟨notices', heq'⟩ := visitBranches_of_notMem (d := { d with notices }) hothers
    refine ⟨notices', ?_⟩
    unfold visitBranches
    rw [if_neg (Ne.symm hne), heq]
    simp only [heq']

end

/-- What a turn leaves of several tasks: the results that have to be collected weigh something. -/
def leftWeight (out : Desk × List ProducerResult × List (Nat × Activity)) : Nat :=
  (if out.2.1.isEmpty then 0 else 1) + tasksWeight out.2.2

/-- A task whose turn leaves it no lighter had nothing to do, and there is nothing to collect. -/
theorem heard_of_turn {told : Nat → Prop} {task : Nat} {a : Activity}
    {others : List (Nat × Activity)} (hcalm : d.board.Calm) (hworking : a.isFinished = false)
    (hnone : task ∉ a.inner) (h : Heard d.board (fun n => told n ∨ n = task) task a)
    (hweight : tasksWeight ((task, a) :: others) ≤ leftWeight (match poll s d a with
      | (d, .finished yield) => (d, yield.contained a.names, others)
      | (d, a) => (d, [], (task, a) :: others))) : Heard d.board told task a := by
  have hpos := weight_pos hworking
  have htasks : ∀ a' : Activity,
      tasksWeight ((task, a') :: others) = 1 + a'.weight + tasksWeight others := fun _ => rfl
  refine heard_of_poll (s := s) hcalm hnone h ?_
  obtain ⟨⟨e, a'⟩, hpoll⟩ : ∃ out, poll s d a = out := ⟨_, rfl⟩
  rw [hpoll, htasks] at hweight
  rw [hpoll]
  cases a' with
  | finished yield =>
    -- whoever is over weighs nothing any more, not even with its results
    have hle : leftWeight (e, yield.contained a.names, others) ≤ 1 + tasksWeight others := by
      unfold leftWeight
      split <;> simp only <;> omega
    have hcontra := Nat.le_trans hweight hle
    omega
  | spawned | calling | waiting | stepping | gathering =>
    have hle := Nat.le_trans hweight (Nat.le_of_eq ((Nat.zero_add _).trans (htasks _)))
    simp only
    omega

mutual

/-- An activity that the turn of a branch leaves no lighter needed no such turn. -/
theorem heard_of_visit (hs : s.Answering) {b : Board} {told : Nat → Prop} (hcalm : b.Calm) :
    ∀ {d : Desk} {rest : Multiset Nat} {owner : Nat} {a : Activity}, d.board = b →
      d.task ≠ owner → Numbered d.tasks (↑a.inner + rest) →
      Heard b (fun n => told n ∨ n = d.task) owner a →
      a.weight ≤ (visit s d owner a).2.weight → Heard b told owner a
  | _, _, _, .finished _, _, _, _, _, _ => trivial
  | _, _, _, .spawned _, _, howner, _, h, _ => Or.resolve_right h (Ne.symm howner)
  | _, _, _, .calling _, _, howner, _, h, _ =>
    ⟨h.1, h.2.imp_left (Or.resolve_right · (Ne.symm howner))⟩
  | _, _, _, .waiting _, _, howner, _, h, _ =>
    h.imp_right (And.imp_left (Or.resolve_right · (Ne.symm howner)))
  | d, _, owner, .stepping _ _ _ current steps, hboard, howner, hnumbered, h, hweight => by
    have hle : 1 + current.weight + Plan.stepsWeight steps ≤
        1 + (visit s d owner current).2.weight + Plan.stepsWeight steps := hweight
    refine ⟨h.1, heard_of_visit hs hcalm (a := current) hboard howner hnumbered h.2 ?_⟩
    omega
  | d, _, owner, .gathering _ _ _ arrived branches, hboard, howner, hnumbered, h, hweight => by
    refine ⟨h.1.imp_left (Or.resolve_right · (Ne.symm howner)), ?_⟩
    refine tasksHeard_of_visit hs hcalm hboard hnumbered h.2 ?_
    have hle : 1 + (if arrived.isEmpty then 0 else 1) + tasksWeight branches ≤
        1 + (if (arrived ++ (visitBranches s d branches).2.1).isEmpty then 0 else 1) +
          tasksWeight (visitBranches s d branches).2.2 := hweight
    unfold leftWeight
    cases arrived with
    | nil =>
      rw [List.nil_append, List.isEmpty_nil, if_pos rfl] at hle
      omega
    | cons r rs =>
      simp only [List.cons_append, List.isEmpty_cons, Bool.false_eq_true, if_false] at hle
      omega

theorem tasksHeard_of_visit (hs : s.Answering) {b : Board} {told : Nat → Prop} (hcalm : b.Calm) :
    ∀ {d : Desk} {rest : Multiset Nat} {tasks : List (Nat × Activity)}, d.board = b →
      Numbered d.tasks (↑(tasksInner tasks) + rest) →
      TasksHeard b (fun n => told n ∨ n = d.task) tasks →
      tasksWeight tasks ≤ leftWeight (visitBranches s d tasks) → TasksHeard b told tasks
  | _, _, [], _, _, _, _ => trivial
  | d, rest, (task, a) :: others, hboard, hnumbered, ⟨⟨hworking, ha⟩, hothers⟩, hweight => by
    rw [coe_tasksInner] at hnumbered
    -- no number is both that of a task and one within another, so one of them has the turn at most
    have hnone := notMem_of_numbered hnumbered (Multiset.mem_cons_self task _)
    have hapart : ∀ n ∈ tasksInner others, n ∉ a.inner := fun n hn =>
      notMem_of_numbered hnumbered (Multiset.mem_cons_of_mem (Multiset.mem_add.2 (.inl hn)))
    have htask : task ∉ tasksInner others := fun hn =>
      (Multiset.nodup_cons.1 (Multiset.nodup_add.1 hnumbered.1).2.1).1
        (Multiset.mem_add.2 (.inl hn))
    unfold visitBranches at hweight
    split at hweight
    · next heq =>
      rw [← heq] at ha hothers
      refine ⟨⟨hworking, ?_⟩, hothers.drop htask⟩
      rw [← hboard] at ha hcalm ⊢
      exact heard_of_turn hcalm hworking hnone ha hweight
    · next heq =>
      have htasks : ∀ (out : Activity) (tasks : List (Nat × Activity)),
          tasksWeight ((task, out) :: tasks) = 1 + out.weight + tasksWeight tasks :=
        fun _ _ => rfl
      by_cases hin : d.task ∈ a.inner
      · -- the turn is one within `a`, and the others are left as they were
        have honward : (visit s d task a).1.task = d.task := by
          have hheard : Heard d.board (d.Told fun n => told n ∨ n = d.task) task a :=
            hboard ▸ ha.congr fun n _ htold => .inl htold
          exact (heeds_visit hs (hboard ▸ hcalm) (Ne.symm heq) hnumbered hheard).onward.task
        have hout : d.task ∉ tasksInner others := fun hn => hapart _ hn hin
        obtain ⟨notices, hleft⟩ :=
          visitBranches_of_notMem (s := s) (d := (visit s d task a).1) (honward.symm ▸ hout)
        simp only [leftWeight, hleft, List.isEmpty_nil, if_true, htasks] at hweight
        refine ⟨⟨hworking, ?_⟩, hothers.drop hout⟩
        refine heard_of_visit hs hcalm hboard (Ne.symm heq) hnumbered ha ?_
        omega
      · -- the turn is not one within `a`, which is left as it was
        obtain ⟨notices, hleft⟩ := visit_of_notMem (s := s) task hin
        have hrest := hnumbered
        rw [← Multiset.add_cons, add_left_comm] at hrest
        refine ⟨⟨hworking, ha.drop ?_⟩, ?_⟩
        · exact List.mem_cons.not.2 (not_or.2 ⟨Ne.symm heq, hin⟩)
        · refine tasksHeard_of_visit hs hcalm (d := { d with notices }) hboard hrest hothers ?_
          rw [hleft] at hweight
          change _ ≤ (if (visitBranches s { d with notices } others).2.1.isEmpty then 0 else 1) +
            tasksWeight ((task, a) :: (visitBranches s { d with notices } others).2.2) at hweight
          rw [htasks, htasks] at hweight
          unfold leftWeight
          omega

end

end Run

end Gateway
