import Gateway.Proofs.Run.Moves

/-!
# Gateway.Proofs.Run.Places — what the places of a plan are given

A producer is called once, but it may stand in many places of a plan, and whoever waits at one of them
has to be given the result of the one call. The cells and the receipts do not say that. A receipt tells
that a result was handed over, not what the place that asked for it went on with; and what a parallel
yields in the end has passed through the hands of several tasks since.

So it is said of the plan itself. `Plan.Comes` tells what a plan comes to if every call in it yields the
result that settled the cell of its producer and nothing else: a sequence what its last step comes to,
or what it makes of the first failure before, a parallel what its branches come to, in some order. It
knows neither tasks nor turns. What a run makes of the plan is compared with it by `Activity.At`, which
tells that an activity is work at a plan: the parts that are over have come to what `Comes` says, and
those that are not are work at what is left of the plan.

Only of a run that is not cancelled can this be said. A cancelled parallel gives up its branches and
fills in results of its own.

The parts that are over are kept in `At` although the activity forgets them. Without them it would not
be clear at the end of a sequence that the plan as a whole has come to something.
-/

set_option autoImplicit false

namespace Gateway

open Activity (tasksOngoing tasksNames)

/-- A place of a producer was given the result that settled the cell. -/
def Board.Gives (b : Board) (p : Producer) (r : ProducerResult) : Prop :=
  b.cells p.id = some (.settled r) ∧ ⟨p, r⟩ ∈ b.receipts

namespace Plan

mutual

/-- What a plan comes to when every place of a producer is given the result in its cell. -/
def Comes (b : Board) : Plan → List ProducerResult → Prop
  | .call p, rs => ∃ r, rs = [r] ∧ b.Gives p r
  | .sequence steps, rs => StepsCome b steps rs
  | .parallel branches, rs => BranchesCome b branches rs
  | .stub .., _ => False

/-- What the steps of a sequence come to: the last one for all of them, unless a failure before ends
the sequence. -/
def StepsCome (b : Board) : List Plan → List ProducerResult → Prop
  | [], rs => rs = []
  | [step], rs => Comes b step rs
  | step :: next :: rest, rs => ∃ before, Comes b step before ∧
    match firstFailure? before with
    | some f => rs = skipped (lastNames (next :: rest)) f
    | none => StepsCome b (next :: rest) rs

/-- What the branches of a parallel come to, in whichever order they are over. -/
def BranchesCome (b : Board) : List Plan → List ProducerResult → Prop
  | [], rs => rs = []
  | branch :: rest, rs => ∃ own others, rs.Perm (own ++ others) ∧ Comes b branch own ∧
    BranchesCome b rest others

end

/-- Steps that have come to results without a failure. -/
def Passed (b : Board) (steps : List Plan) : Prop :=
  ∀ step ∈ steps, ∃ rs, step.Comes b rs ∧ firstFailure? rs = none

end Plan

namespace Activity

mutual

/-- An activity is work at a plan. -/
def At (b : Board) : Activity → Plan → Prop
  | .finished (.results rs), plan => plan.Comes b rs
  | .finished (.panic _), _ => False
  | .spawned begun, plan => begun = plan
  | .calling o, plan => plan = .call o.producer ∧ o.cell = true
  | .waiting p, plan => plan = .call p
  | .stepping _ _ _ current rest, plan => ∃ before step,
    plan = .sequence (before ++ step :: rest) ∧ Plan.Passed b before ∧ At b current step
  | .gathering _ _ collected arrived branches, plan => ∃ plans ended left,
    plan = .parallel plans ∧ plans.Perm (ended ++ left) ∧
      Plan.BranchesCome b ended (collected ++ arrived) ∧ TasksAt b branches left

/-- Tasks are at work at one plan each. -/
def TasksAt (b : Board) : List (Nat × Activity) → List Plan → Prop
  | [], plans => plans = []
  | (_, a) :: rest, plans => ∃ plan others, plans = plan :: others ∧ At b a plan ∧
    TasksAt b rest others

end

/-- Plans are divided among those that have come to results and those that tasks are at. -/
def Shares (b : Board) (rs : List ProducerResult) (tasks : List (Nat × Activity))
    (plans : List Plan) : Prop :=
  ∃ ended left, plans.Perm (ended ++ left) ∧ Plan.BranchesCome b ended rs ∧ TasksAt b tasks left

end Activity

variable {b c : Board} {p q : Producer} {r r' : ProducerResult}

/-! ## Results stay where they are -/

/-- All places of a producer are given the same. -/
theorem Board.Gives.eq (h : b.Gives p r) (h' : b.Gives q r') (hid : p.id = q.id) : r = r' :=
  Cell.settled.inj (Option.some.inj (h.1.symm.trans (hid ▸ h'.1)))

theorem Board.Gives.mono (hbc : b.Extends c) (h : b.Gives p r) : c.Gives p r :=
  ⟨hbc.settled h.1, hbc.receipts.subset h.2⟩

namespace Plan

mutual

theorem Comes.mono (hbc : b.Extends c) :
    ∀ {plan : Plan} {rs : List ProducerResult}, plan.Comes b rs → plan.Comes c rs
  | .call _, _, ⟨r, heq, hgives⟩ => ⟨r, heq, hgives.mono hbc⟩
  | .sequence _, _, h => StepsCome.mono hbc h
  | .parallel _, _, h => BranchesCome.mono hbc h
  | .stub .., _, h => h.elim

theorem StepsCome.mono (hbc : b.Extends c) :
    ∀ {steps : List Plan} {rs : List ProducerResult}, StepsCome b steps rs → StepsCome c steps rs
  | [], _, h => h
  | [step], rs, (h : step.Comes b rs) => h.mono hbc
  | step :: next :: rest, rs, ⟨before, hbefore, h⟩ => by
    refine ⟨before, Comes.mono hbc hbefore, ?_⟩
    cases hf : firstFailure? before with
    | some f =>
      rw [hf] at h
      exact h
    | none =>
      rw [hf] at h
      have hrest : StepsCome b (next :: rest) rs := h
      exact StepsCome.mono hbc hrest

theorem BranchesCome.mono (hbc : b.Extends c) :
    ∀ {branches : List Plan} {rs : List ProducerResult},
      BranchesCome b branches rs → BranchesCome c branches rs
  | [], _, h => h
  | _ :: _, _, ⟨own, others, hperm, hown, hothers⟩ =>
    ⟨own, others, hperm, Comes.mono hbc hown, BranchesCome.mono hbc hothers⟩

end

variable {step : Plan} {before others : List Plan} {rs rs' : List ProducerResult} {f : Failure}

theorem Passed.mono (hbc : b.Extends c) (h : Passed b before) : Passed c before := fun step hstep =>
  have ⟨rs, hcomes, hf⟩ := h step hstep
  ⟨rs, hcomes.mono hbc, hf⟩

theorem Passed.snoc (h : Passed b before) (hstep : step.Comes b rs) (hf : firstFailure? rs = none) :
    Passed b (before ++ [step]) := fun other hother => by
  rcases List.mem_append.1 hother with hother | hother
  · exact h other hother
  · cases List.mem_singleton.1 hother
    exact ⟨rs, hstep, hf⟩

/-- Steps that have passed leave the outcome to those that are left. -/
theorem StepsCome.append (hpassed : Passed b before) (hne : others ≠ [])
    (h : StepsCome b others rs) : StepsCome b (before ++ others) rs := by
  induction before with
  | nil => exact h
  | cons first rest ih =>
    have hrest := ih fun step hstep => hpassed step (List.mem_cons_of_mem first hstep)
    obtain ⟨own, hown, hf⟩ := hpassed first List.mem_cons_self
    obtain ⟨next, more, hmore⟩ : ∃ next more, rest ++ others = next :: more :=
      List.exists_cons_of_ne_nil fun hnil => hne (List.append_eq_nil_iff.1 hnil).2
    rw [List.cons_append, hmore]
    refine ⟨own, hown, ?_⟩
    rw [hf, ← hmore]
    exact hrest

/-- A failure skips the steps after it. -/
theorem StepsCome.of_failure (hne : others ≠ []) (h : step.Comes b rs)
    (hf : firstFailure? rs = some f) :
    StepsCome b (step :: others) (skipped (lastNames others) f) := by
  obtain ⟨next, more, rfl⟩ := List.exists_cons_of_ne_nil hne
  refine ⟨rs, h, ?_⟩
  rw [hf]

theorem StepsCome.single (h : step.Comes b rs) : StepsCome b [step] rs := h

theorem BranchesCome.append {branches branches' : List Plan} (h : BranchesCome b branches rs)
    (h' : BranchesCome b branches' rs') : BranchesCome b (branches ++ branches') (rs ++ rs') := by
  induction branches generalizing rs with
  | nil =>
    cases h
    exact h'
  | cons branch rest ih =>
    obtain ⟨own, others, hperm, hown, hothers⟩ := h
    refine ⟨own, others ++ rs', ?_, hown, ih hothers⟩
    rw [← List.append_assoc]
    exact hperm.append_right rs'

/-- In which order branches are listed does not matter. -/
theorem BranchesCome.perm {branches branches' : List Plan} (hperm : branches.Perm branches')
    (h : BranchesCome b branches rs) : BranchesCome b branches' rs := by
  induction hperm generalizing rs with
  | nil => exact h
  | cons branch _ ih =>
    obtain ⟨own, others, hown, hcomes, hothers⟩ := h
    exact ⟨own, others, hown, hcomes, ih hothers⟩
  | swap first second rest =>
    obtain ⟨own, others, hown, hcomes, own', others', hown', hcomes', hothers⟩ := h
    refine ⟨own', own ++ others', ?_, hcomes', own, others', List.Perm.refl _, hcomes, hothers⟩
    exact (hown.trans (hown'.append_left own)).trans (List.perm_append_comm_assoc _ _ _)
  | trans _ _ ih ih' => exact ih' (ih h)

end Plan

namespace Activity

mutual

theorem At.mono (hbc : b.Extends c) :
    ∀ {a : Activity} {plan : Plan}, a.At b plan → a.At c plan
  | .finished (.results _), _, h => Plan.Comes.mono hbc h
  | .finished (.panic _), _, h => h.elim
  | .spawned _, _, h | .calling _, _, h | .waiting _, _, h => h
  | .stepping _ _ _ _ _, _, ⟨before, step, heq, hpassed, h⟩ =>
    ⟨before, step, heq, hpassed.mono hbc, At.mono hbc h⟩
  | .gathering _ _ _ _ _, _, ⟨plans, ended, left, heq, hperm, hended, h⟩ =>
    ⟨plans, ended, left, heq, hperm, hended.mono hbc, TasksAt.mono hbc h⟩

theorem TasksAt.mono (hbc : b.Extends c) :
    ∀ {tasks : List (Nat × Activity)} {plans : List Plan}, TasksAt b tasks plans →
      TasksAt c tasks plans
  | [], _, h => h
  | (_, _) :: _, _, ⟨plan, others, heq, h, hrest⟩ =>
    ⟨plan, others, heq, At.mono hbc h, TasksAt.mono hbc hrest⟩

end

/-- The branches of a parallel after some more of them are over. -/
theorem Shares.append {rs rs' : List ProducerResult} {tasks : List (Nat × Activity)}
    {plans ended left : List Plan} (hperm : plans.Perm (ended ++ left))
    (hended : Plan.BranchesCome b ended rs) (h : Shares b rs' tasks left) :
    Shares b (rs ++ rs') tasks plans := by
  obtain ⟨ended', left', hperm', hended', htasks⟩ := h
  refine ⟨ended ++ ended', left', ?_, hended.append hended', htasks⟩
  rw [List.append_assoc]
  exact hperm.trans (hperm'.append_left ended)

end Activity

namespace Discipline

variable {s : Setting} {J : Discipline s} {d : Desk} {rest : Multiset Ongoing}

/-- Unless the run is cancelled, what a task leaves is work at a plan. -/
def Serves (plan : Plan) (out : Desk × Activity) : Prop :=
  out.1.board.cancelled = false → out.2.At out.1.board plan

/-! ## Calls -/

theorem serves_receive (hcell : d.board.cells p.id = some (.settled r)) :
    Serves (.call p) (Run.receive d p r) := fun _ =>
  ⟨r, rfl, hcell, List.mem_append_right _ (List.mem_singleton_self _)⟩

theorem serves_settle {cell : Bool} (h : cell = true) :
    Serves (.call p) (Run.settle d p cell r) := by
  subst h
  exact serves_receive (Board.cells_setCell_self _ _ _)

theorem serves_complete {o : Ongoing} (h : o.cell = true) :
    Serves (.call o.producer) (Run.complete s d o) := serves_settle h

/-- Whether the request is made or not, and however soon it is answered. -/
theorem serves_takeCell {line : List Nat} : Serves (.call p) (Run.takeCell s d p line) := by
  unfold Run.takeCell
  generalize { d with board := d.board.setCell p.id (.taken line) } = e
  cases hcancelled : e.board.cancelled with
  | true =>
    rw [Run.invoke_of_cancelled hcancelled]
    exact serves_settle rfl
  | false =>
    cases hprepare : p.prepare s.client e.board.results with
    | error f =>
      rw [Run.invoke_of_error hcancelled hprepare]
      exact serves_settle rfl
    | ok made =>
      rw [Run.invoke_of_ok hcancelled hprepare]
      show Serves (.call p) (if _ then _ else _)
      split
      · exact serves_complete rfl
      · exact fun _ => ⟨rfl, rfl⟩

theorem serves_request (h : J.Sound d rest) (hpre : J.Pre d.board (.call p)) :
    Serves (.call p) (Run.request s d p) := by
  obtain ⟨cell, hcell⟩ := Option.isSome_iff_exists.1 (J.cell h.inv hpre)
  unfold Run.request
  rw [hcell]
  cases cell with
  | settled r => exact serves_receive hcell
  | vacant => exact serves_takeCell
  | taken line | offered first line => exact fun _ => rfl

theorem serves_recheck (h : J.Sound d rest) (hpre : J.Pre d.board (.call p)) :
    Serves (.call p) (Run.recheck s d p) := by
  obtain ⟨cell, hcell⟩ := Option.isSome_iff_exists.1 (J.cell h.inv hpre)
  unfold Run.recheck
  rw [hcell]
  cases cell with
  | settled r => exact serves_receive hcell
  | vacant | taken line => exact fun _ => rfl
  | offered first line =>
    show Serves (.call p) (if _ then _ else _)
    split
    · exact serves_takeCell
    · exact fun _ => rfl

theorem serves_pollCall {o : Ongoing} (h : o.cell = true) :
    Serves (.call o.producer) (Run.pollCall s d o) := by
  unfold Run.pollCall
  split
  · exact serves_settle h
  · split
    · exact serves_complete h
    · exact fun _ => ⟨rfl, h⟩

/-! ## Beginning and going on -/

/-- What follows a step. The steps `before` it have passed, and the step itself may be another one than
that for which the sequence is in order: only the names of the last step matter to that. -/
theorem serves_afterStep {since : Nat} {progressed : Bool} {step served : Plan}
    {before others : List Plan} {next : Desk → Desk × Activity} {out : Desk × Activity}
    (hpre : J.Pre d.board (.sequence (step :: others))) (h : J.Leaves d rest step.names out)
    (hpassed : Plan.Passed d.board before) (hout : Serves served out)
    (hnext : others ≠ [] → ∀ e, J.Sound e rest →
      (e.board.cancelled = false → J.Pre e.board (.sequence others)) →
      (e.board.cancelled = false → Plan.Passed e.board (before ++ [served])) →
      Serves (.sequence (before ++ [served] ++ others)) (next e) ∧
        e.board.Extends (next e).1.board) :
    Serves (.sequence (before ++ served :: others))
      (Run.afterStep since progressed (Plan.lastNames (step :: others)) others next out) := by
  obtain ⟨e, a⟩ := out
  have hworking : Serves (.sequence (before ++ served :: others))
      (e, .stepping since progressed (Plan.lastNames (step :: others)) a others) := fun hlive =>
    ⟨before, served, rfl, hpassed.mono h.extend, hout hlive⟩
  cases a with
  | finished yield =>
    cases yield with
    | panic message => exact absurd h.ok id
    | results rs =>
      have hbefore := hpassed.mono h.extend
      cases others with
      | nil => exact fun hlive =>
          Plan.StepsCome.append hbefore (List.cons_ne_nil _ _) (.single (hout hlive))
      | cons other others =>
        obtain ⟨hpublished, hext, hnext'⟩ := published_of_leaves hpre (List.cons_ne_nil _ _) h
        -- publishing settles no cell, so what the steps came to they still come to
        have hlater := Board.extends_publish e.board rs
        rw [Run.afterStep, if_neg (by simp)]
        cases hf : firstFailure? rs with
        | some f =>
          intro hlive
          have hcomes := Plan.Comes.mono hlater (hout hlive)
          exact Plan.StepsCome.append (hbefore.mono hlater) (List.cons_ne_nil _ _)
            (.of_failure (List.cons_ne_nil _ _) hcomes hf)
        | none =>
          obtain ⟨hserves, -⟩ := hnext (List.cons_ne_nil _ _) _ hpublished (hnext' hf) fun hlive =>
            (hbefore.mono hlater).snoc (Plan.Comes.mono hlater (hout hlive)) hf
          rw [List.append_assoc] at hserves
          exact hserves
  | spawned | calling | waiting | stepping | gathering => exact hworking

theorem serves_collect {since : Nat} {names : List String}
    {collected arrived : List ProducerResult} {branches : List (Nat × Activity)} {plan : Plan}
    (hok : J.Ok d.board (.gathering since names collected arrived branches))
    (hat : d.board.cancelled = false →
      (Activity.gathering since names collected arrived branches).At d.board plan) :
    Serves plan (Run.collect d since names collected arrived branches) := by
  unfold Run.collect
  show Serves plan (if _ then _ else _)
  split
  · next hend =>
    intro hlive
    obtain ⟨plans, ended, left, rfl, hperm, hended, htasks⟩ := hat hlive
    -- the end of a parallel that is not cancelled is that of its last branch
    obtain rfl : branches = [] := by
      by_contra hne
      exact absurd (Ok.cancelled_of_left hok hend hne) (ne_true_of_eq_false hlive)
    cases htasks
    rw [List.append_nil] at hperm
    rw [Ok.take_gathered hok, Ok.completed hok]
    exact hended.perm hperm.symm
  · intro hlive
    obtain ⟨plans, ended, left, rfl, hperm, hended, htasks⟩ := hat hlive
    rw [← List.append_nil (collected ++ arrived)] at hended
    exact ⟨plans, ended, left, rfl, hperm, hended, htasks⟩

theorem tasksAt_spawn (b : Board) (d : Desk) (plans : List Plan) :
    Activity.TasksAt b (d.spawn plans).2 plans :=
  spawned_induction (motive := fun plans tasks => Activity.TasksAt b tasks plans) rfl
    (fun plan rest _ _ ih => ⟨plan, rest, rfl, rfl, ih⟩) d plans

mutual

theorem serves_start {d : Desk} : ∀ {plan : Plan}, J.Sound d rest → J.Pre d.board plan →
    Serves plan (Run.start s d plan)
  | .call _, h, hpre => serves_request h hpre
  | .sequence [], _, _ => fun _ => rfl
  | .sequence (step :: others), h, hpre => by
    have hnone : Plan.Passed d.board [] := fun _ hmem => absurd hmem List.not_mem_nil
    exact serves_startSteps (List.cons_ne_nil step others) h (fun _ => hpre) fun _ => hnone
  | .parallel branches, h, hpre => by
    by_cases hnone : Plan.allNames branches = []
    · unfold Run.start
      rw [if_pos (List.isEmpty_iff.2 hnone)]
      -- a parallel that announces nothing has no branches, since each of them announces something
      cases branches with
      | nil => exact fun _ => rfl
      | cons branch others =>
        exact absurd (List.append_eq_nil_iff.1 hnone).1 (J.branch hpre List.mem_cons_self).2
    · rw [start_parallel d hnone]
      refine serves_collect (J := J) ⟨?_, ?_, ?_⟩ fun _ =>
        ⟨branches, [], branches, rfl, List.Perm.refl _, rfl, tasksAt_spawn _ d branches⟩
      · rw [tasksNames_spawn]
        exact List.Perm.refl _
      · exact fun r hr => absurd hr List.not_mem_nil
      · exact okTasks_spawn d fun branch hbranch => J.branch hpre hbranch
  | .stub .., _, hpre => absurd hpre J.stub

theorem serves_startSteps {d : Desk} {progressed : Bool} {before : List Plan} :
    ∀ {steps : List Plan}, steps ≠ [] → J.Sound d rest →
      (d.board.cancelled = false → J.Pre d.board (.sequence steps)) →
      (d.board.cancelled = false → Plan.Passed d.board before) →
      Serves (.sequence (before ++ steps))
        (Run.startSteps s d progressed (Plan.lastNames steps) steps)
  | [], hne, _, _, _ => absurd rfl hne
  | step :: others, _, h, hpre, hpassed => by
    unfold Run.startSteps
    split
    · next hcancelled => exact fun hlive => absurd hcancelled (ne_true_of_eq_false hlive)
    · next hlive =>
      have hlive := Bool.eq_false_iff.2 hlive
      have hstep := J.step (hpre hlive)
      refine serves_afterStep (hpre hlive) (leaves_start h hstep) (hpassed hlive)
        (serves_start h hstep) fun hne e hsound hrest hpassed' => ?_
      rw [lastNames_cons hne]
      exact ⟨serves_startSteps hne hsound hrest hpassed', (leaves_startSteps hsound hrest).extend⟩

end

/-- Going on with an activity that is work at a plan. -/
theorem serves_poll : ∀ {a : Activity} {plan : Plan}, J.Sound d (↑a.ongoing + rest) →
    J.Ok d.board a → (d.board.cancelled = false → a.At d.board plan) →
    Serves plan (Run.poll s d a)
  | .finished _, _, _, _, hat => hat
  | .spawned _, _, h, hok, hat => fun hlive => by
    have hlive' := (leaves_start (Multiset.zero_add rest ▸ h) hok).extend.live hlive
    obtain rfl := hat hlive'
    exact serves_start (Multiset.zero_add rest ▸ h) hok hlive
  | .calling o, plan, h, hok, hat => fun hlive => by
    obtain ⟨rfl, hcell⟩ := hat ((leaves_poll (a := .calling o) h hok).extend.live hlive)
    exact serves_pollCall hcell hlive
  | .waiting p, plan, h, hok, hat => fun hlive => by
    obtain rfl := hat ((leaves_poll (a := .waiting p) h hok).extend.live hlive)
    exact serves_recheck (Multiset.zero_add rest ▸ h) hok hlive
  -- the step that is at work moves from the ones that are left to those that have passed
  | .stepping since progressed names current others, plan, h, hok, hat => fun hlive => by
    have hlive' := (leaves_poll h hok).extend.live hlive
    obtain ⟨before, served, rfl, hpassed, hcurrent'⟩ := hat hlive'
    obtain ⟨⟨step, hnames, rfl, hpre⟩, hcurrent⟩ := hok
    unfold Run.poll at hlive ⊢
    rw [if_neg (ne_true_of_eq_false hlive')] at hlive ⊢
    refine serves_afterStep hpre ((leaves_poll (a := current) h hcurrent).rename hnames) hpassed
      (serves_poll (a := current) h hcurrent fun _ => hcurrent')
      (fun hne e hsound hrest hpassed' => ?_) hlive
    rw [lastNames_cons hne]
    exact ⟨serves_startSteps hne hsound hrest hpassed', (leaves_startSteps hsound hrest).extend⟩
  | .gathering _ _ _ _ _, _, _, hok, hat => serves_collect hok hat

/-! ## The turns of other tasks -/

/-- The turn of one of several tasks, which then is over or is not. -/
theorem shares_poll {task : Nat} {a : Activity} {others : List (Nat × Activity)} {plan : Plan}
    {plans : List Plan}
    (h : J.Leaves d (↑(tasksOngoing others) + rest) a.names (Run.poll s d a))
    (hserves : Serves plan (Run.poll s d a)) (hothers : Activity.TasksAt d.board others plans) :
    let out := match Run.poll s d a with
      | (d, .finished yield) => (d, yield.contained a.names, others)
      | (d, a) => (d, [], (task, a) :: others)
    out.1.board.cancelled = false →
      Activity.Shares out.1.board out.2.1 out.2.2 (plan :: plans) := by
  obtain ⟨⟨e, out⟩, hpoll⟩ : ∃ out, Run.poll s d a = out := ⟨_, rfl⟩
  rw [hpoll] at h hserves ⊢
  have hworking : e.board.cancelled = false →
      Activity.Shares e.board [] ((task, out) :: others) (plan :: plans) := fun hlive =>
    ⟨[], plan :: plans, List.Perm.refl _, rfl, plan, plans, rfl, hserves hlive,
      hothers.mono h.extend⟩
  cases out with
  | finished yield =>
    cases yield with
    | panic message => exact absurd h.ok id
    | results rs =>
      refine fun hlive => ⟨[plan], plans, List.Perm.refl _, ?_, hothers.mono h.extend⟩
      exact ⟨rs, [], (List.append_nil rs).symm ▸ List.Perm.refl _, hserves hlive, rfl⟩
  | spawned | calling | waiting | stepping | gathering => exact hworking

/-- Waking the task of a parallel leaves the board to its branches. -/
theorem board_visit_gathering (owner since : Nat) (names : List String)
    (collected arrived : List ProducerResult) (branches : List (Nat × Activity)) :
    (Run.visit s d owner (.gathering since names collected arrived branches)).1.board =
      (Run.visitBranches s d branches).1.board := by
  unfold Run.visit
  show (if _ then _ else _ : Desk).board = _
  split <;> rfl

mutual

theorem serves_visit {d : Desk} {rest : Multiset Ongoing} (owner : Nat) :
    ∀ {a : Activity} {plan : Plan}, J.Sound d (↑a.ongoing + rest) → J.Ok d.board a →
      (d.board.cancelled = false → a.At d.board plan) → Serves plan (Run.visit s d owner a)
  | .finished _, _, _, _, hat | .spawned _, _, _, _, hat | .calling _, _, _, _, hat
  | .waiting _, _, _, _, hat => hat
  | .stepping since progressed names current others, _, h, hok, hat => fun hlive => by
    obtain ⟨-, hcurrent⟩ := hok
    have hext := (leaves_visit owner (a := current) h hcurrent).extend
    obtain ⟨before, step, rfl, hpassed, hcurrent'⟩ := hat (hext.live hlive)
    exact ⟨before, step, rfl, hpassed.mono hext,
      serves_visit owner (a := current) h hcurrent (fun _ => hcurrent') hlive⟩
  | .gathering since names collected arrived branches, _, h, hok, hat => by
    unfold Serves
    rw [board_visit_gathering]
    intro hlive
    have hext := (leaves_visitBranches h hok.2.2).extend
    obtain ⟨plans, ended, left, rfl, hperm, hended, htasks⟩ := hat (hext.live hlive)
    have hshares := shares_visitBranches h hok.2.2 (fun _ => htasks) hlive
    obtain ⟨ended', left', hperm', hended', htasks'⟩ :=
      Activity.Shares.append hperm (hended.mono hext) hshares
    exact ⟨plans, ended', left', rfl, hperm', (List.append_assoc _ _ _) ▸ hended', htasks'⟩

theorem shares_visitBranches {d : Desk} {rest : Multiset Ongoing} :
    ∀ {tasks : List (Nat × Activity)} {plans : List Plan},
      J.Sound d (↑(tasksOngoing tasks) + rest) → J.OkTasks d.board tasks →
      (d.board.cancelled = false → Activity.TasksAt d.board tasks plans) →
      (Run.visitBranches s d tasks).1.board.cancelled = false →
      Activity.Shares (Run.visitBranches s d tasks).1.board (Run.visitBranches s d tasks).2.1
        (Run.visitBranches s d tasks).2.2 plans
  | [], plans, _, _, hat => fun hlive => ⟨[], plans, List.Perm.refl _, rfl, hat hlive⟩
  | (task, a) :: others, plans, h, hok, hat => fun hlive => by
    have hlive' := (leaves_visitBranches h hok).extend.live hlive
    obtain ⟨plan, plans, rfl, hat, hothers⟩ := hat hlive'
    obtain ⟨⟨-, hok⟩, hokothers⟩ := hok
    rw [tasksOngoing, ← Multiset.coe_add, Multiset.add_assoc] at h
    unfold Run.visitBranches at hlive ⊢
    split at hlive
    · next htask =>
      rw [if_pos htask]
      exact shares_poll (leaves_poll h hok) (serves_poll h hok fun _ => hat) hothers hlive
    · next htask =>
      rw [if_neg htask]
      -- the first task is looked at and keeps its branch; the turn may still be one of the others
      have hvisit := leaves_visit task h hok
      have hsound := hvisit.sound
      rw [add_left_comm] at hsound
      have hokothers' := OkTasks.mono J hvisit.extend hokothers
      have hrest := leaves_visitBranches hsound hokothers'
      have hserves := serves_visit task h hok (fun _ => hat) (hrest.extend.live hlive)
      obtain ⟨ended, left, hperm, hended, htasks⟩ :=
        shares_visitBranches hsound hokothers' (fun _ => hothers.mono hvisit.extend) hlive
      exact ⟨ended, plan :: left, (hperm.cons plan).trans List.perm_middle.symm, hended, plan, left,
        rfl, hserves.mono hrest.extend, htasks⟩

end

/-! ## Whole runs -/

/-- The root begins with work at the plan. -/
theorem serves_opening {b : Board} {plan : Plan} (hinv : J.Inv b 0) (hpre : J.Pre b plan)
    (hlive : (Work.opening s b plan).board.cancelled = false) :
    (Work.opening s b plan).root.At (Work.opening s b plan).board plan := by
  rw [Work.opening, Work.begin, Work.afterRoot, Work.board_after] at hlive ⊢
  rw [Work.root_after]
  have hsound : J.Sound ((Work.ofBoard s b).desk 0) 0 := ⟨hinv, trivial, fun hne => absurd rfl hne⟩
  exact serves_start hsound hpre hlive

/-- Unless it is cancelled, a turn leaves the root at work at the same plan. -/
theorem Kept.at_take {w : Work} {plan : Plan} (h : J.Kept w)
    (hat : w.board.cancelled = false → w.root.At w.board plan) (turn : Turn)
    (hlive : (w.take s turn).board.cancelled = false) :
    (w.take s turn).root.At (w.take s turn).board plan := by
  have htaken := w.taken s turn
  generalize w.take s turn = v at htaken hlive ⊢
  cases htaken with
  | idle => exact hat hlive
  | cancellation hcancel => cases hlive
  | root =>
    rw [Work.afterRoot, Work.board_after] at hlive ⊢
    rw [Work.root_after]
    exact serves_poll (h.sound 0) h.root hat hlive
  -- the board goes on while those given up are looked at, which changes no settled cell
  | @branch task hne =>
    have hvisit := leaves_visit 0 (h.sound task) h.root
    have hsound := hvisit.sound
    rw [Multiset.add_comm] at hsound
    have hgiven := leaves_visitGivenUp hsound (OkTasks.mono J hvisit.extend h.tasks)
      fun hne => hvisit.extend.cancelled (h.cancelled hne)
    rw [Work.board_after] at hlive ⊢
    rw [Work.root_after]
    have hserves := serves_visit 0 (h.sound task) h.root hat (hgiven.extend.live hlive)
    exact hserves.mono hgiven.extend

/-- Every schedule that is not cancelled keeps the root at work at its plan. -/
theorem Kept.at_leads (hpatient : J.Patient) {w v : Work} {plan : Plan} (h : J.Kept w)
    (hat : w.board.cancelled = false → w.root.At w.board plan) (hwv : w.Leads s v)
    (hlive : v.board.cancelled = false) : v.root.At v.board plan := by
  induction hwv with
  | refl => exact hat hlive
  | tail hbefore hmove ih =>
    have hkept := (h.leads hpatient hbefore).1
    cases hmove with
    | turn turn => exact hkept.at_take ih turn hlive
    | row ready burst => exact ih hlive
    | wait time => exact (ih hlive).mono (Board.extends_wait _ time)
    | drop hdrop => exact absurd (Work.cancelled_drop _) (ne_true_of_eq_false hlive)

end Discipline

end Gateway
