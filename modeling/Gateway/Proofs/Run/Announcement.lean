import Gateway.Proofs.Run.Once
import Mathlib

/-!
# Gateway.Proofs.Run.Announcement — plans yield what they announce

A plan announces the names of its results, and yields just as many results under just these names,
however it comes to its end: with a failure on the way, cancelled before or after a step, with a branch
that panics, or with some of its branches never heard of. Steps and branches may be missing and
producers may stand in several places, so nothing is said here of calls or of what results hold.

An activity is *sincere* if the names it announced are those of the results it has and of the parts
that are still at work. All that this needs of the board is that the result in a cell bears the name of
its producer; whoever else works on the board keeps that, so a plan can rely on it between its turns.

One thing is asked of the producers: that an id bears one name (`OneName`). Cells are found by id and
results are missed by name, so a producer that finds the cell of its id settled by another one hands on
a result under a name that it did not announce. Nothing in a plan or a run rules this out. It is the
graph that numbers its producers, and the plans of a graph are not the only ones that can be made: two
producers made by themselves have the same id. The last theorem is about such a pair, in a parallel. It
has as many results as it announced, looks for the one that is missing by name, and returns one more
than it said.
-/

set_option autoImplicit false

namespace Gateway

open Activity (tasksNames)

namespace Plan

mutual

/-- A plan that calls some producers, in any arrangement. -/
def Over (ps : List Producer) : Plan → Prop
  | .call p => p ∈ ps
  | .sequence steps => OverAll ps steps
  | .parallel branches => OverAll ps branches
  | .stub .. => False

def OverAll (ps : List Producer) : List Plan → Prop
  | [] => True
  | plan :: rest => Over ps plan ∧ OverAll ps rest

end

/-- A plan came to what it announced. -/
def Fulfilled (plan : Plan) (yield : Yield) : Prop :=
  ∃ rs, yield = .results rs ∧ rs.length = plan.size ∧ (rs.map (·.name)).Perm plan.names

end Plan

/-- The result in the cell of a producer bears its name. -/
def Board.Named (ps : List Producer) (b : Board) : Prop :=
  ∀ p ∈ ps, ∀ r, b.cells p.id = some (.settled r) → r.name = p.name

/-- What a plan may be at: it is begun on some board, or made a task that has not begun it, and goes on
on other boards, when it has a turn or a branch within it has one. -/
inductive Plan.Reaches (s : Setting) (ps : List Producer) (plan : Plan) : Activity → Prop
  | spawned : Reaches s ps plan (.spawned plan)
  | start {d : Desk} (hd : d.board.Named ps) : Reaches s ps plan (Run.start s d plan).2
  | poll {d : Desk} {a : Activity} (hd : d.board.Named ps) (ha : Reaches s ps plan a) :
    Reaches s ps plan (Run.poll s d a).2
  | visit {d : Desk} {owner : Nat} {a : Activity} (hd : d.board.Named ps)
    (ha : Reaches s ps plan a) : Reaches s ps plan (Run.visit s d owner a).2

namespace Activity

variable (ps : List Producer)

mutual

/-- The names that an activity announced are those of its results and of its parts. -/
def Sincere : Activity → Prop
  | .finished (.results _) => True
  | .finished (.panic _) => False
  | .spawned plan => plan.Over ps
  | .calling o => o.producer ∈ ps
  | .waiting p => p ∈ ps
  | .stepping _ _ names current rest =>
    (∃ step, current.names.Perm step.names ∧ names = Plan.lastNames (step :: rest)) ∧
      Plan.OverAll ps rest ∧ Sincere current
  | .gathering _ names collected arrived branches =>
    names.Perm ((collected ++ arrived).map (·.name) ++ tasksNames branches) ∧
      SincereTasks branches

def SincereTasks : List (Nat × Activity) → Prop
  | [] => True
  | (_, a) :: rest => Sincere a ∧ SincereTasks rest

end

variable {ps}

theorem sincereTasks_append {tasks tasks' : List (Nat × Activity)} (h : SincereTasks ps tasks)
    (h' : SincereTasks ps tasks') : SincereTasks ps (tasks ++ tasks') := by
  induction tasks with
  | nil => exact h'
  | cons task rest ih => exact ⟨h.1, ih h.2⟩

end Activity

open Activity (SincereTasks)

/-- Producers with one id bear one name, as the producers of an endpoint do, whose ids are their
places. -/
def OneName (ps : List Producer) : Prop := ∀ p ∈ ps, ∀ q ∈ ps, p.id = q.id → p.name = q.name

/-- What a task has before it is in order: the board, and the tasks that it gave up after those that
were `known` before. -/
structure Desk.Honest (ps : List Producer) (known : List (Nat × Activity)) (d : Desk) : Prop where
  board : d.board.Named ps
  givenUp : ∃ more, d.givenUp = known ++ more ∧ SincereTasks ps more

/-- A turn leaves an activity that announces these names, and keeps what others rely on. -/
structure Keeps (ps : List Producer) (known : List (Nat × Activity)) (names : List String)
    (out : Desk × Activity) : Prop where
  desk : out.1.Honest ps known
  sincere : out.2.Sincere ps
  names : out.2.names.Perm names

variable {s : Setting} {ps : List Producer} {b : Board} {d : Desk} {p : Producer}
  {names : List String} {known : List (Nat × Activity)}

namespace Board.Named

theorem of_cells {c : Board} (h : b.Named ps) (hcells : c.cells = b.cells) : c.Named ps :=
  fun p hp r hr => h p hp r (hcells ▸ hr)

theorem setCell {id : Nat} {cell : Cell} (h : b.Named ps)
    (hcell : ∀ p ∈ ps, p.id = id → ∀ r, cell = .settled r → r.name = p.name) :
    (b.setCell id cell).Named ps := by
  intro p hp r hr
  by_cases heq : p.id = id
  · rw [heq, cells_setCell_self] at hr
    exact hcell p hp heq r (Option.some.inj hr)
  · rw [cells_setCell_of_ne heq] at hr
    exact h p hp r hr

theorem settle (hone : OneName ps) (h : b.Named ps) (hp : p ∈ ps) {r : ProducerResult}
    (hr : r.name = p.name) : (b.setCell p.id (.settled r)).Named ps :=
  h.setCell fun q hq hid r' heq => by
    rw [← Cell.settled.inj heq, hr, hone q hq p hp hid]

end Board.Named

namespace Desk.Honest

theorem giveUp {tasks : List (Nat × Activity)} (h : d.Honest ps known)
    (htasks : SincereTasks ps tasks) : (d.giveUp tasks).Honest ps known := by
  obtain ⟨more, hgiven, hmore⟩ := h.givenUp
  refine ⟨h.board, more ++ tasks, ?_, Activity.sincereTasks_append hmore htasks⟩
  rw [← List.append_assoc, ← hgiven]
  rfl

theorem wake (h : d.Honest ps known) (tasks : List Nat) : (d.wake tasks).Honest ps known :=
  ⟨h.board, h.givenUp⟩

theorem setCell {id : Nat} {cell : Cell} (h : d.Honest ps known) (hcell : ∀ r, cell ≠ .settled r) :
    ({ d with board := d.board.setCell id cell } : Desk).Honest ps known :=
  ⟨h.board.setCell fun _ _ _ r heq => absurd heq (hcell r), h.givenUp⟩

/-- Lines may change. -/
theorem requeue {id : Nat} {cell cell' : Cell} (h : d.Honest ps known)
    (hcell : d.board.cells id = some cell) (hline : cell.Requeued cell') :
    ({ d with board := d.board.setCell id cell' } : Desk).Honest ps known := by
  refine ⟨h.board.setCell fun p hp hid r heq => ?_, h.givenUp⟩
  subst heq
  rcases hline with rfl | ⟨-, htaken⟩ | ⟨-, hfree⟩
  · exact h.board p hp r (hid ▸ hcell)
  · cases htaken
  · cases hfree

theorem releaseCell (h : d.Honest ps known) (id : Nat) : (d.releaseCell id).Honest ps known := by
  refine (h.setCell fun r heq => ?_).wake _
  have hfree := Cell.isFree_release ((d.board.cells id).elim [] Cell.line)
  rw [heq] at hfree
  cases hfree

end Desk.Honest

theorem Keeps.of_results {rs : List ProducerResult} (h : d.Honest ps known)
    (hnames : (rs.map (·.name)).Perm names) : Keeps ps known names (d, .finished (.results rs)) :=
  ⟨h, trivial, hnames⟩

theorem Keeps.rename {names' : List String} {out : Desk × Activity} (h : Keeps ps known names out)
    (hnames : names.Perm names') : Keeps ps known names' out :=
  { h with names := h.names.trans hnames }

theorem names_skipped (names : List String) (f : Failure) :
    (skipped names f).map (·.name) = names := by
  rw [skipped, List.map_map]
  exact List.map_id _

namespace Run

/-! ## Calls -/

theorem keeps_receive {r : ProducerResult} (h : d.Honest ps known) (hr : r.name = p.name) :
    Keeps ps known [p.name] (receive d p r) :=
  .of_results ⟨h.board.of_cells rfl, h.givenUp⟩ (.of_eq (congrArg ([·]) hr))

theorem honest_sent {request : BackendRequest} (h : d.Honest ps known) :
    (sent s d p request).Honest ps known := by
  have hentered : ({ d with board := (d.board.look p).enter p request } : Desk).Honest ps known :=
    ⟨h.board.of_cells rfl, h.givenUp⟩
  show (if _ then Desk.cancel _ else _ : Desk).Honest ps known
  split
  · refine ⟨hentered.board.of_cells ?_, ?_⟩
    · rw [Desk.cancelled_cancel]
      rfl
    · rw [Desk.givenUp_cancel]
      exact h.givenUp
  · exact hentered

variable (hone : OneName ps)

include hone

theorem keeps_settle {cell : Bool} {r : ProducerResult} (h : d.Honest ps known) (hp : p ∈ ps)
    (hr : r.name = p.name) : Keeps ps known [p.name] (settle d p cell r) := by
  refine keeps_receive ?_ hr
  cases cell with
  | true => exact ⟨h.board.settle hone hp hr, h.givenUp⟩
  | false => exact h

theorem keeps_complete {o : Ongoing} (h : d.Honest ps known) (ho : o.producer ∈ ps) :
    Keeps ps known [o.producer.name] (complete s d o) :=
  keeps_settle hone ⟨h.board.of_cells rfl, h.givenUp⟩ ho Run.name_outcome

theorem keeps_invoke {cell : Bool} (h : d.Honest ps known) (hp : p ∈ ps) :
    Keeps ps known [p.name] (invoke s d p cell) := by
  cases hcancelled : d.board.cancelled with
  | true =>
    rw [invoke_of_cancelled hcancelled]
    exact keeps_settle hone h hp rfl
  | false =>
    cases hprepare : p.prepare s.client d.board.results with
    | error f =>
      rw [invoke_of_error hcancelled hprepare]
      exact keeps_settle hone ⟨h.board.of_cells rfl, h.givenUp⟩ hp rfl
    | ok made =>
      obtain ⟨expected, request⟩ := made
      rw [invoke_of_ok hcancelled hprepare]
      show Keeps ps known [p.name] (if _ then _ else _)
      split
      · exact keeps_complete (o := { d.board.underway s d.task d.turn p expected request with cell })
          hone (honest_sent h) hp
      · exact ⟨honest_sent h, hp, .refl _⟩

theorem keeps_takeCell {line : List Nat} (h : d.Honest ps known) (hp : p ∈ ps) :
    Keeps ps known [p.name] (takeCell s d p line) :=
  keeps_invoke hone (h.setCell fun _ heq => by cases heq) hp

theorem keeps_request (h : d.Honest ps known) (hp : p ∈ ps) :
    Keeps ps known [p.name] (request s d p) := by
  unfold request
  cases hcell : d.board.cells p.id with
  | none => exact keeps_invoke hone h hp
  | some cell =>
    cases cell with
    | settled r => exact keeps_receive h (h.board p hp r hcell)
    | vacant => exact keeps_takeCell hone h hp
    | taken line | offered task line =>
      exact ⟨h.requeue hcell (Cell.requeued_join d.task _), hp, .refl _⟩

theorem keeps_recheck (h : d.Honest ps known) (hp : p ∈ ps) :
    Keeps ps known [p.name] (recheck s d p) := by
  have hwaiting : Keeps ps known [p.name] (d, .waiting p) := ⟨h, hp, .refl _⟩
  unfold recheck
  cases hcell : d.board.cells p.id with
  | none => exact hwaiting
  | some cell =>
    cases cell with
    | settled r => exact keeps_receive h (h.board p hp r hcell)
    | vacant | taken line => exact hwaiting
    | offered task line =>
      show Keeps ps known [p.name] (if _ then _ else _)
      split
      · exact keeps_takeCell hone h hp
      · exact hwaiting

theorem keeps_pollCall {o : Ongoing} (h : d.Honest ps known) (ho : o.producer ∈ ps) :
    Keeps ps known [o.producer.name] (pollCall s d o) := by
  unfold pollCall
  split
  · exact keeps_settle hone ⟨h.board.of_cells rfl, h.givenUp⟩ ho rfl
  · split
    · exact keeps_complete hone h ho
    · exact ⟨h, ho, .refl _⟩

end Run

/-! ## Giving up -/

namespace Desk

theorem Honest.leaveLine (h : d.Honest ps known) (id : Nat) : (d.leaveLine id).Honest ps known := by
  unfold Desk.leaveLine
  cases hcell : d.board.cells id with
  | none => exact h
  | some cell => exact (h.requeue hcell (Cell.requeued_leave d.task cell)).wake _

/-- What is dropped leaves sincere tasks. -/
theorem Honest.drop : ∀ {d : Desk} {a : Activity}, d.Honest ps known → a.Sincere ps →
    (d.drop a).Honest ps known
  | _, .finished _, h, _ | _, .spawned _, h, _ => h
  -- the call is abandoned and its cell set free; no cell is settled
  | d, .calling o, h, _ => by
    unfold Desk.drop
    have hmarked : ({ d with board := d.board.mark o.call .abandoned } : Desk).Honest ps known :=
      ⟨h.board.of_cells rfl, h.givenUp⟩
    split
    · exact hmarked.releaseCell o.producer.id
    · exact hmarked
  | _, .waiting p, h, _ => h.leaveLine p.id
  | _, .stepping _ _ _ current _, h, ha => by
    unfold Desk.drop
    exact Honest.drop (a := current) h ha.2.2
  | _, .gathering _ _ _ _ branches, h, ha => h.giveUp ha.2

end Desk

namespace Run

/-! ## Beginning and going on -/

/-- What follows a step: the results of the last one are those of the sequence, and whoever goes on
after another one yields what is announced. -/
theorem keeps_afterStep {since : Nat} {progressed : Bool} {step : Plan} {others : List Plan}
    {next : Desk → Desk × Activity} {out : Desk × Activity} (hothers : Plan.OverAll ps others)
    (h : Keeps ps known step.names out)
    (hnext : others ≠ [] → ∀ e, e.Honest ps known → Keeps ps known (Plan.lastNames others) (next e)) :
    Keeps ps known (Plan.lastNames (step :: others))
      (afterStep since progressed (Plan.lastNames (step :: others)) others next out) := by
  obtain ⟨e, a⟩ := out
  obtain ⟨hdesk, hsincere, hnames⟩ := h
  have hworking : Keeps ps known (Plan.lastNames (step :: others))
      (e, .stepping since progressed (Plan.lastNames (step :: others)) a others) :=
    ⟨hdesk, ⟨⟨step, hnames, rfl⟩, hothers, hsincere⟩, .refl _⟩
  cases a with
  | finished yield =>
    cases yield with
    | panic message => exact absurd hsincere id
    | results rs =>
      -- the last step ends the sequence; behind another one the results are published first
      cases others with
      | nil => exact ⟨hdesk, trivial, hnames⟩
      | cons other others =>
        have hpublished : ({ e with board := e.board.publish rs } : Desk).Honest ps known :=
          ⟨hdesk.board.of_cells rfl, hdesk.givenUp⟩
        rw [afterStep, if_neg (by simp)]
        cases firstFailure? rs with
        | some f => exact .of_results hpublished (.of_eq (names_skipped _ _))
        | none => exact hnext (List.cons_ne_nil _ _) _ hpublished
  | spawned | calling | waiting | stepping | gathering => exact hworking

/-- A parallel fills in the names of which it has no result. -/
theorem keeps_collect {since : Nat} {collected arrived : List ProducerResult}
    {branches : List (Nat × Activity)} (h : d.Honest ps known)
    (hsincere : (Activity.gathering since names collected arrived branches).Sincere ps) :
    Keeps ps known names (collect d since names collected arrived branches) := by
  obtain ⟨hnames, hbranches⟩ := hsincere
  unfold collect
  show Keeps ps known names (if _ then _ else _)
  split
  · -- there are no more results than names, so none is dropped
    have htake : (collected ++ arrived).take names.length = collected ++ arrived := by
      have hlength := hnames.length_eq
      simp only [List.length_append, List.length_map] at hlength
      apply List.take_of_length_le
      simp only [List.length_append]
      omega
    rw [htake]
    exact .of_results (h.giveUp hbranches) (names_completedWith hnames)
  · refine ⟨h, ⟨?_, hbranches⟩, .refl _⟩
    rwa [List.append_nil]

theorem sincereTasks_spawn (d : Desk) {plans : List Plan} (h : Plan.OverAll ps plans) :
    SincereTasks ps (d.spawn plans).2 :=
  Discipline.spawned_induction
    (motive := fun plans tasks => Plan.OverAll ps plans → SincereTasks ps tasks)
    (fun _ => trivial) (fun _ _ _ _ ih h => ⟨h.1, ih h.2⟩) d plans h

mutual

theorem keeps_start (hone : OneName ps) : ∀ {d : Desk} {plan : Plan}, d.Honest ps known →
    plan.Over ps → Keeps ps known plan.names (start s d plan)
  | _, .call _, h, hp => keeps_request hone h hp
  | _, .sequence _, h, hsteps => keeps_startSteps hone h hsteps
  | d, .parallel branches, h, hbranches => by
    by_cases hnone : Plan.allNames branches = []
    · unfold start
      rw [if_pos (List.isEmpty_iff.2 hnone)]
      exact .of_results h (.of_eq hnone.symm)
    · rw [Discipline.start_parallel d hnone]
      refine keeps_collect ⟨h.board, h.givenUp⟩ ⟨?_, sincereTasks_spawn d hbranches⟩
      rw [Discipline.tasksNames_spawn]
      exact .refl _
  | _, .stub .., _, hplan => absurd hplan id

theorem keeps_startSteps (hone : OneName ps) : ∀ {d : Desk} {steps : List Plan}
    {progressed : Bool}, d.Honest ps known → Plan.OverAll ps steps →
    Keeps ps known (Plan.lastNames steps) (startSteps s d progressed (Plan.lastNames steps) steps)
  | _, [], _, h, _ => .of_results h (.refl _)
  | d, step :: others, progressed, h, ⟨hstep, hothers⟩ => by
    unfold startSteps
    split
    · exact .of_results h (.of_eq (names_skipped _ _))
    · refine keeps_afterStep hothers (keeps_start hone h hstep) fun hne e he => ?_
      rw [Discipline.lastNames_cons hne]
      exact keeps_startSteps hone he hothers

end

theorem keeps_poll (hone : OneName ps) : ∀ {d : Desk} {a : Activity}, d.Honest ps known →
    a.Sincere ps → Keeps ps known a.names (poll s d a)
  | _, .finished (.results _), h, ha => ⟨h, ha, .refl _⟩
  | _, .finished (.panic _), _, ha => absurd ha id
  | _, .spawned _, h, ha => keeps_start hone h ha
  | _, .calling _, h, ha => keeps_pollCall hone h ha
  | _, .waiting _, h, ha => keeps_recheck hone h ha
  | _, .stepping since progressed names current others, h, ha => by
    obtain ⟨⟨step, hnames, rfl⟩, hothers, hcurrent⟩ := ha
    unfold poll
    split
    · exact .of_results (h.drop hcurrent) (.of_eq (names_skipped _ _))
    · refine keeps_afterStep hothers ((keeps_poll hone h hcurrent).rename hnames) fun hne e he => ?_
      rw [Discipline.lastNames_cons hne]
      exact keeps_startSteps hone he hothers
  | _, .gathering .., h, ha => keeps_collect h ha

/-! ## The turns of other tasks -/

/-- A turn leaves of several tasks the results of the one that is over, and those that are left. -/
structure KeepsTasks (ps : List Producer) (known : List (Nat × Activity)) (names : List String)
    (out : Desk × List ProducerResult × List (Nat × Activity)) : Prop where
  desk : out.1.Honest ps known
  tasks : SincereTasks ps out.2.2
  names : names.Perm (out.2.1.map (·.name) ++ tasksNames out.2.2)

/-- The turn of one of several tasks, which then is over or is not. -/
theorem keepsTasks_poll {task : Nat} {a : Activity} {others : List (Nat × Activity)}
    (hothers : SincereTasks ps others) (h : Keeps ps known a.names (poll s d a)) :
    KeepsTasks ps known (tasksNames ((task, a) :: others)) (match poll s d a with
      | (d, .finished yield) => (d, yield.contained a.names, others)
      | (d, a) => (d, [], (task, a) :: others)) := by
  obtain ⟨⟨e, out⟩, hpoll⟩ : ∃ out, poll s d a = out := ⟨_, rfl⟩
  rw [hpoll] at h ⊢
  obtain ⟨hdesk, hsincere, hnames⟩ := h
  have hworking : KeepsTasks ps known (tasksNames ((task, a) :: others))
      (e, [], (task, out) :: others) :=
    ⟨hdesk, ⟨hsincere, hothers⟩, (hnames.append_right _).symm⟩
  cases out with
  | finished yield =>
    cases yield with
    | panic message => exact absurd hsincere id
    | results rs => exact ⟨hdesk, hothers, (hnames.append_right _).symm⟩
  | spawned | calling | waiting | stepping | gathering => exact hworking

mutual

theorem keeps_visit (hone : OneName ps) : ∀ {d : Desk} (owner : Nat) {a : Activity},
    d.Honest ps known → a.Sincere ps → Keeps ps known a.names (visit s d owner a)
  | _, _, .finished _, h, ha | _, _, .spawned _, h, ha | _, _, .calling _, h, ha
  | _, _, .waiting _, h, ha => ⟨h, ha, .refl _⟩
  | _, owner, .stepping _ _ _ current _, h, ⟨⟨step, hnames, hlast⟩, hrest, hcurrent⟩ => by
    obtain ⟨hdesk, hsincere, hnames'⟩ := keeps_visit hone owner h hcurrent
    exact ⟨hdesk, ⟨⟨step, hnames'.trans hnames, hlast⟩, hrest, hsincere⟩, .refl _⟩
  | d, owner, .gathering since names collected arrived branches, h, ⟨hnames, hbranches⟩ => by
    obtain ⟨hdesk, htasks, hnames'⟩ := keeps_visitBranches hone h hbranches
    have hstill : (Activity.gathering since names collected
        (arrived ++ (visitBranches s d branches).2.1)
        (visitBranches s d branches).2.2).Sincere ps := by
      refine ⟨?_, htasks⟩
      rw [← List.append_assoc, List.map_append, List.append_assoc]
      exact hnames.trans (hnames'.append_left _)
    unfold visit
    show Keeps ps known names (if _ then _ else _, _)
    split
    · exact ⟨hdesk, hstill, .refl _⟩
    · exact ⟨hdesk.wake _, hstill, .refl _⟩

theorem keeps_visitBranches (hone : OneName ps) : ∀ {d : Desk} {tasks : List (Nat × Activity)},
    d.Honest ps known → SincereTasks ps tasks →
      KeepsTasks ps known (tasksNames tasks) (visitBranches s d tasks)
  | _, [], h, _ => ⟨h, trivial, .refl _⟩
  | d, (task, a) :: others, h, ⟨ha, hothers⟩ => by
    unfold visitBranches
    split
    · exact keepsTasks_poll hothers (keeps_poll hone h ha)
    · have hfirst := keeps_visit hone task h ha
      have hrest := keeps_visitBranches hone hfirst.desk hothers
      refine ⟨hrest.desk, ⟨hfirst.sincere, hrest.tasks⟩, ?_⟩
      exact (hfirst.names.symm.append hrest.names).trans (List.perm_append_comm_assoc _ _ _)

end

theorem keeps_visitGivenUp (hone : OneName ps) : ∀ {d : Desk} {tasks : List (Nat × Activity)},
    d.Honest ps known → SincereTasks ps tasks →
      (visitGivenUp s d tasks).1.Honest ps known ∧ SincereTasks ps (visitGivenUp s d tasks).2
  | _, [], h, _ => ⟨h, trivial⟩
  | d, (task, a) :: others, h, ⟨ha, hothers⟩ => by
    unfold visitGivenUp
    split
    · exact ⟨h.drop ha, hothers⟩
    · have hfirst := keeps_visit (s := s) hone task h ha
      obtain ⟨hdesk, htasks⟩ := keeps_visitGivenUp hone hfirst.desk hothers
      exact ⟨hdesk, hfirst.sincere, htasks⟩

end Run

/-! ## Runs -/

theorem Desk.Honest.of_named (h : d.board.Named ps) : d.Honest ps d.givenUp :=
  ⟨h, [], (List.append_nil _).symm, trivial⟩

/-- Wherever a plan gets to is sincere, and announces the names of the plan. -/
theorem Plan.Reaches.sincere {plan : Plan} {a : Activity} (hone : OneName ps)
    (hplan : plan.Over ps) (h : plan.Reaches s ps a) :
    a.Sincere ps ∧ a.names.Perm plan.names := by
  induction h with
  | spawned => exact ⟨hplan, .refl _⟩
  | start hd =>
    obtain ⟨-, hsincere, hnames⟩ := Run.keeps_start (s := s) hone (.of_named hd) hplan
    exact ⟨hsincere, hnames⟩
  | poll hd _ ih =>
    obtain ⟨-, hsincere, hnames⟩ := Run.keeps_poll (s := s) hone (.of_named hd) ih.1
    exact ⟨hsincere, hnames.trans ih.2⟩
  | @visit d owner a hd _ ih =>
    obtain ⟨-, hsincere, hnames⟩ := Run.keeps_visit (s := s) hone owner (.of_named hd) ih.1
    exact ⟨hsincere, hnames.trans ih.2⟩

theorem Plan.Reaches.fulfilled {plan : Plan} {yield : Yield} (hone : OneName ps)
    (hplan : plan.Over ps) (h : plan.Reaches s ps (.finished yield)) : plan.Fulfilled yield := by
  obtain ⟨hsincere, hnames⟩ := h.sincere hone hplan
  cases yield with
  | panic message => exact absurd hsincere id
  | results rs =>
    have hlength : (rs.map (·.name)).length = plan.size := hnames.length_eq
    exact ⟨rs, rfl, by rwa [List.length_map] at hlength, hnames⟩

namespace Work

/-- Every task of a work is in order. -/
structure Honest (ps : List Producer) (w : Work) : Prop where
  board : w.board.Named ps
  root : w.root.Sincere ps
  givenUp : SincereTasks ps w.givenUp

variable {w v : Work} {plan : Plan}

theorem honest_after {root : Activity} {givenUp : List (Nat × Activity)} (h : d.Honest ps [])
    (hroot : root.Sincere ps) (hgiven : SincereTasks ps givenUp) :
    (w.after d root givenUp).Honest ps := by
  obtain ⟨ready, hafter⟩ := w.after_eq d root givenUp
  obtain ⟨more, heq, hmore⟩ := h.givenUp
  rw [hafter]
  refine ⟨h.board, hroot, Activity.sincereTasks_append hgiven ?_⟩
  rw [heq]
  exact hmore

theorem Honest.desk (h : w.Honest ps) (task : Nat) : (w.desk task).Honest ps [] :=
  ⟨h.board, [], rfl, trivial⟩

theorem honest_opening (hone : OneName ps) (hplan : plan.Over ps) (hb : b.Named ps) :
    (opening s b plan).Honest ps ∧ plan.Reaches s ps (opening s b plan).root := by
  have hdesk : ((ofBoard s b).desk 0).Honest ps [] := ⟨hb, [], rfl, trivial⟩
  obtain ⟨hdesk', hsincere, -⟩ := Run.keeps_start (s := s) hone hdesk hplan
  refine ⟨honest_after hdesk' hsincere trivial, ?_⟩
  rw [opening, begin, afterRoot, root_after]
  exact .start hb

/-- A turn leaves tasks in order, and the root where its plan can get. -/
theorem Honest.take (hone : OneName ps) (h : w.Honest ps) (turn : Turn) :
    (w.take s turn).Honest ps ∧
      (plan.Reaches s ps w.root → plan.Reaches s ps (w.take s turn).root) := by
  have htaken := w.taken s turn
  generalize w.take s turn = v at htaken ⊢
  cases htaken with
  | idle => exact ⟨h, id⟩
  | cancellation => exact ⟨⟨h.board.of_cells rfl, h.root, h.givenUp⟩, id⟩
  | root =>
    obtain ⟨hdesk, hsincere, -⟩ := Run.keeps_poll (s := s) hone (h.desk 0) h.root
    refine ⟨honest_after hdesk hsincere h.givenUp, fun hreach => ?_⟩
    rw [afterRoot, root_after]
    exact hreach.poll h.board
  | @branch task hne =>
    obtain ⟨hdesk, hsincere, -⟩ := Run.keeps_visit (s := s) hone 0 (h.desk task) h.root
    obtain ⟨hdesk', hgiven⟩ := Run.keeps_visitGivenUp (s := s) hone hdesk h.givenUp
    refine ⟨honest_after hdesk' hsincere hgiven, fun hreach => ?_⟩
    rw [root_after]
    exact hreach.visit h.board

theorem Honest.step (hone : OneName ps) (h : w.Honest ps) (hstep : w.step? s = some v) :
    v.Honest ps ∧ (plan.Reaches s ps w.root → plan.Reaches s ps v.root) := by
  cases stepped hstep with
  | @took turn ready burst _ =>
    exact Honest.take (w := { w with ready, burst }) hone ⟨h.board, h.root, h.givenUp⟩ turn
  | passed => exact ⟨⟨h.board, h.root, h.givenUp⟩, id⟩

theorem Honest.drop (h : w.Honest ps) : w.drop.Honest ps := by
  have hdropped := (h.desk 0).drop h.root
  refine honest_after ⟨?_, ?_⟩ trivial h.givenUp
  · rw [Desk.cancelled_cancel]
    exact hdropped.board.of_cells rfl
  · rw [Desk.givenUp_cancel]
    exact hdropped.givenUp

/-- Every schedule leaves tasks in order and, unless the run is dropped, the root where its plan can
get. -/
theorem Honest.leads (hone : OneName ps) (h : w.Honest ps) (hwv : w.Leads s v) :
    v.Honest ps ∧
      (s.dropAt = none → plan.Reaches s ps w.root → plan.Reaches s ps v.root) := by
  induction hwv with
  | refl => exact ⟨h, fun _ => id⟩
  | tail _ hmove ih =>
    obtain ⟨hkept, hreach⟩ := ih
    cases hmove with
    | turn turn =>
      obtain ⟨hkept', hreach'⟩ := hkept.take hone turn
      exact ⟨hkept', fun hdrop hw => hreach' (hreach hdrop hw)⟩
    | row ready burst => exact ⟨⟨hkept.board, hkept.root, hkept.givenUp⟩, hreach⟩
    | wait time => exact ⟨⟨hkept.board.of_cells rfl, hkept.root, hkept.givenUp⟩, hreach⟩
    | drop hdrop =>
      exact ⟨hkept.drop, fun hnone => absurd hdrop (by rw [hnone]; exact Bool.false_ne_true)⟩

/-- A run that finishes comes to what its plan can get to. -/
theorem reaches_finish (hone : OneName ps) (h : w.Honest ps) (hreach : plan.Reaches s ps w.root)
    {yield : Yield} (hout : (w.finish s).2 = .finished yield) :
    plan.Reaches s ps (.finished yield) := by
  -- the run takes steps and lets time pass, and its root stays where the plan can get to
  fun_induction finish s w with
  | case1 w yield' hroot =>
    cases hout
    exact hroot ▸ hreach
  | case2 w v hstep _ ih =>
    obtain ⟨hkept, hreach'⟩ := h.step hone hstep
    exact ih hkept (hreach' hreach) hout
  | case3 w => cases hout
  | case4 w _ t _ _ _ ih => exact ih ⟨h.board.of_cells rfl, h.root, h.givenUp⟩ hreach hout
  | case5 w => cases hout
  | case6 w => cases hout

end Work

theorem Board.named_fresh (ps : List Producer) (plan : Plan) (cancelled : Bool) :
    (fresh plan cancelled).Named ps := by
  intro p _ r hr
  have hcell : (if plan.producers.any (·.id = p.id) then some Cell.vacant else none)
      = some (.settled r) := hr
  split at hcell <;> cases hcell

/-- A plan of some producers that is begun, and gone on with, on boards where cells hold what they
should comes to nothing but results, as many as it announced and under these names, and itself leaves
such boards. So this holds of every part of a plan: a run that begins on such a board, as one before
any call is, has such boards throughout, however the tasks take their turns and whenever the run is
cancelled or dropped. And it holds of the plan that is run. -/
theorem fulfilled_of_over (hone : OneName ps) (s : Setting) :
    (∀ node : Plan, node.Over ps → ∀ a, node.Reaches s ps a →
      (∀ yield, a = .finished yield → node.Fulfilled yield) ∧
      ∀ d : Desk, d.board.Named ps → (Run.poll s d a).1.board.Named ps ∧
        ∀ owner, (Run.visit s d owner a).1.board.Named ps) ∧
    (∀ plan : Plan, plan.Over ps → ∀ b : Board, b.Named ps →
      (∀ w, (Work.opening s b plan).Leads s w →
        w.board.Named ps ∧ (s.dropAt = none → plan.Reaches s ps w.root)) ∧
      ∀ yield, (plan.run s b).outcome = .finished yield → plan.Fulfilled yield) ∧
    ∀ plan cancelled, (Board.fresh plan cancelled).Named ps := by
  refine ⟨?_, ?_, Board.named_fresh ps⟩
  -- the invariant is of the activity alone, and does not ask what else is at work
  · intro node hnode a h
    have hsincere := (h.sincere hone hnode).1
    refine ⟨?_, fun d hd => ⟨?_, fun owner => ?_⟩⟩
    · rintro yield rfl
      exact h.fulfilled hone hnode
    · exact (Run.keeps_poll hone (.of_named hd) hsincere).desk.board
    · exact (Run.keeps_visit hone owner (.of_named hd) hsincere).desk.board
  · intro plan hplan b hb
    obtain ⟨hopening, hreach⟩ := Work.honest_opening (s := s) hone hplan hb
    refine ⟨fun w hw => ?_, fun yield hout => ?_⟩
    · obtain ⟨hkept, hstays⟩ := hopening.leads hone hw
      exact ⟨hkept.board, fun hdrop => hstays hdrop hreach⟩
    · exact (Work.reaches_finish hone hopening hreach hout).fulfilled hone hplan

/-- A producer stands twice in a plan with empty parts, and the plan is cancelled before it is
answered. -/
theorem fulfilled_of_cut :
    let ps := [Producer.plain 0 "first", .plain 1 "second"]
    let plan := Plan.parallel [.sequence [], .call (.plain 0 "first"), .parallel [],
      .sequence [.call (.plain 1 "second"), .call (.plain 0 "first")]]
    let s : Setting :=
      { client := .plain, cancelAt := some 3,
        backends := fun _ _ _ => { ending := .response { status := 200 }, delay := some 5 } }
    OneName ps ∧ plan.Over ps ∧
      ∃ rs, (plan.run s (.fresh plan false)).outcome = .finished (.results rs) ∧ rs.length = 2 := by
  intro ps plan s
  have hone : OneName ps := by simp [OneName, ps, Producer.plain]
  have hplan : plan.Over ps := by simp [plan, ps, Plan.Over, Plan.OverAll]
  have hdone : (plan.run s (.fresh plan false)).outcome.ctorIdx = 0 := by cbv
  refine ⟨hone, hplan, ?_⟩
  cases hout : (plan.run s (.fresh plan false)).outcome with
  | finished yield =>
    obtain ⟨-, hrun, hfresh⟩ := fulfilled_of_over hone s
    obtain ⟨rs, rfl, hlength, -⟩ := (hrun plan hplan _ (hfresh plan false)).2 yield hout
    exact ⟨rs, rfl, hlength⟩
  | dropped | stalled =>
    rw [hout] at hdone
    cases hdone

/-- Two producers that were given the same id have one cell, so that the place of the second is handed
the result of the first. The parallel then has as many results as it announced, finds no name of the
second among them, and fills one in: three results are returned where two were announced. -/
theorem overfilled_of_shared_id :
    let ps := [Producer.plain 0 "first", .plain 0 "second"]
    let plan := Plan.parallel [.call (.plain 0 "first"), .call (.plain 0 "second")]
    let s : Setting :=
      { client := .plain, backends := fun _ _ _ => { ending := .response { status := 200 } } }
    plan.Over ps ∧ plan.names = ["first", "second"] ∧
      ∃ rs, (plan.run s (.fresh plan false)).outcome = .finished (.results rs) ∧
        rs.map (·.name) = ["first", "first", "second"] ∧ ¬ plan.Fulfilled (.results rs) := by
  intro ps plan s
  have hplan : plan.Over ps := by simp [plan, ps, Plan.Over, Plan.OverAll]
  have hnames : (plan.run s (.fresh plan false)).outcome.results.map (·.name) =
      ["first", "first", "second"] := by cbv
  have hdone : (plan.run s (.fresh plan false)).outcome =
      .finished (.results (plan.run s (.fresh plan false)).outcome.results) := by cbv
  refine ⟨hplan, rfl, _, hdone, hnames, ?_⟩
  rintro ⟨rs, heq, hlength, -⟩
  cases heq
  have hthree := congrArg List.length hnames
  rw [List.length_map, hlength] at hthree
  cases hthree

end Gateway
