import Gateway.Proofs.Run.Deed
import Gateway.Run.Work

/-!
# Gateway.Proofs.Run.Upkeep — turns keep a discipline

`Discipline.Ok` says that an activity is in order: the results it has are right, the plans that it
has yet to begin may be begun, and the names it announced are those of the results it has and of
the parts that are still at work. Every function that makes up a turn keeps this, and so does the
whole turn. The induction is on the plan that is begun, and on the activity that is gone on with;
whatever other tasks have is in the multiset `rest`, which nothing here looks into.

Four things are said of what a task leaves (`Leaves`), and all four are needed to say any of them. That
the board is in order includes the calls under way, so the activity must be known to have its own and
no others. That the activity is in order is true of the board as it is then, so one has to know that
later boards extend it. And the names are what a sequence or a parallel relies on when it puts its parts
together again.

A task that was given up is in order, too, and goes on to have turns until it has noticed. This happens
only after a cancellation (`Sound.cancelled`), where every failed result is right.
-/

set_option autoImplicit false

namespace Gateway

namespace Activity

/-- The names of the results that several tasks will yield. -/
def tasksNames (tasks : List (Nat × Activity)) : List String := tasks.flatMap (·.2.names)

theorem tasksOngoing_append (tasks tasks' : List (Nat × Activity)) :
    tasksOngoing (tasks ++ tasks') = tasksOngoing tasks ++ tasksOngoing tasks' := by
  induction tasks with
  | nil => rfl
  | cons task rest ih =>
    rw [List.cons_append, tasksOngoing, tasksOngoing, ih, List.append_assoc]

end Activity

open Activity (tasksOngoing tasksNames)

@[simp] theorem Desk.now_cancel (d : Desk) : d.cancel.board.now = d.board.now := by
  unfold cancel
  split <;> rfl

namespace Run

variable {s : Setting} {d : Desk} {p : Producer} {cell : Bool}

theorem invoke_of_cancelled (h : d.board.cancelled = true) :
    invoke s d p cell = settle d p cell (.failed p.name .cancelled) := if_pos h

theorem invoke_of_error {f : Failure} (h : d.board.cancelled = false)
    (hprepare : p.prepare s.client d.board.results = .error f) :
    invoke s d p cell = settle { d with board := d.board.look p } p cell (.failed p.name f) := by
  have hlooked : p.prepare s.client (d.board.look p).results = .error f := hprepare
  simp only [invoke, h, hlooked, Bool.false_eq_true, if_false]

/-- The desk of a task that has sent a request. -/
def sent (s : Setting) (d : Desk) (p : Producer) (request : BackendRequest) : Desk :=
  let d' := { d with board := (d.board.look p).enter p request }
  if (s.backends p (d.board.callCount p) request).cancels then d'.cancel else d'

theorem now_sent {request : BackendRequest} : (sent s d p request).board.now = d.board.now := by
  show (if _ then Desk.cancel _ else _ : Desk).board.now = _
  split
  · exact Desk.now_cancel _
  · rfl

theorem invoke_of_ok {expected : List Nat} {request : BackendRequest}
    (h : d.board.cancelled = false)
    (hprepare : p.prepare s.client d.board.results = .ok (expected, request)) :
    invoke s d p cell =
      let o := { d.board.underway s d.task d.turn p expected request with cell }
      if (s.backends p (d.board.callCount p) request).delay = some 0
      then complete s (sent s d p request) o else (sent s d p request, .calling o) := by
  have hlooked : p.prepare s.client (d.board.look p).results = .ok (expected, request) := hprepare
  simp only [invoke, h, hlooked, Bool.false_eq_true, if_false]
  rfl

end Run

namespace Discipline

variable {s : Setting} (J : Discipline s)

mutual

/-- An activity is in order. -/
def Ok (b : Board) : Activity → Prop
  | .finished (.results rs) => ∀ r ∈ rs, J.Right b r
  | .finished (.panic _) => False
  | .spawned plan => J.Pre b plan
  | .calling _ => True
  | .waiting p => J.Pre b (.call p)
  | .stepping _ _ names current rest =>
    (∃ step, current.names.Perm step.names ∧ names = Plan.lastNames (step :: rest) ∧
      J.Pre b (.sequence (step :: rest))) ∧ Ok b current
  | .gathering _ names collected arrived branches =>
    names.Perm ((collected ++ arrived).map (·.name) ++ tasksNames branches) ∧
      (∀ r ∈ collected ++ arrived, J.Right b r) ∧ OkTasks b branches

/-- Tasks are in order, and each of them will yield something. -/
def OkTasks (b : Board) : List (Nat × Activity) → Prop
  | [] => True
  | (_, a) :: rest => (a.names ≠ [] ∧ Ok b a) ∧ OkTasks b rest

end

mutual

theorem Ok.mono {b c : Board} (hbc : b.Extends c) : ∀ {a : Activity}, J.Ok b a → J.Ok c a
  | .finished (.results _), h => fun r hr => J.right_mono hbc (h r hr)
  | .finished (.panic _), h => h
  | .spawned _, h => J.pre_mono hbc h
  | .calling _, h => h
  | .waiting _, h => J.pre_mono hbc h
  | .stepping _ _ _ _ _, ⟨⟨step, hnames, hlast, hpre⟩, h⟩ =>
    ⟨⟨step, hnames, hlast, J.pre_mono hbc hpre⟩, Ok.mono hbc h⟩
  | .gathering _ _ _ _ _, ⟨hnames, hright, h⟩ =>
    ⟨hnames, fun r hr => J.right_mono hbc (hright r hr), OkTasks.mono hbc h⟩

theorem OkTasks.mono {b c : Board} (hbc : b.Extends c) :
    ∀ {tasks : List (Nat × Activity)}, J.OkTasks b tasks → J.OkTasks c tasks
  | [], _ => trivial
  | (_, _) :: _, ⟨⟨hne, h⟩, hrest⟩ => ⟨⟨hne, Ok.mono hbc h⟩, OkTasks.mono hbc hrest⟩

end

theorem okTasks_append {b : Board} {tasks tasks' : List (Nat × Activity)}
    (h : J.OkTasks b tasks) (h' : J.OkTasks b tasks') : J.OkTasks b (tasks ++ tasks') := by
  induction tasks with
  | nil => exact h'
  | cons task rest ih => exact ⟨h.1, ih h.2⟩

/-- What a task has before it is in order: the board, the calls of the tasks it has given up with
those of everyone else, and the tasks it has given up, which only happens after a cancellation. -/
structure Sound (d : Desk) (calls : Multiset Ongoing) : Prop where
  inv : J.Inv d.board (↑(tasksOngoing d.givenUp) + calls)
  ok : J.OkTasks d.board d.givenUp
  cancelled : d.givenUp ≠ [] → d.board.cancelled = true

/-- What a task leaves that began with desk `d` is in order: `out` is its desk and its activity,
which has the calls that are not in `rest` and announces `names`. -/
structure Leaves (d : Desk) (rest : Multiset Ongoing) (names : List String)
    (out : Desk × Activity) : Prop where
  sound : J.Sound out.1 (↑out.2.ongoing + rest)
  extend : d.board.Extends out.1.board
  ok : J.Ok out.1.board out.2
  names : out.2.names.Perm names

variable {J}

theorem Leaves.rebase {d e : Desk} {rest : Multiset Ongoing} {names : List String}
    {out : Desk × Activity} (hde : d.board.Extends e.board) (h : J.Leaves e rest names out) :
    J.Leaves d rest names out :=
  { h with extend := hde.trans h.extend }

theorem Leaves.rename {d : Desk} {rest : Multiset Ongoing} {names names' : List String}
    {out : Desk × Activity} (h : J.Leaves d rest names out) (hnames : names.Perm names') :
    J.Leaves d rest names' out :=
  { h with names := h.names.trans hnames }

theorem Sound.deed {d e : Desk} {c : Board} {calls calls' : Multiset Ongoing}
    (h : J.Sound d calls) (hboard : e.board = c) (hgiven : e.givenUp = d.givenUp)
    (hdeed : Deed s (fun b p => J.Pre b (.call p)) J.Right d.board
      (↑(tasksOngoing d.givenUp) + calls) c (↑(tasksOngoing d.givenUp) + calls')) :
    J.Sound e calls' ∧ d.board.Extends e.board := by
  subst hboard
  obtain ⟨hinv, hext⟩ := J.deed hdeed h.inv
  refine ⟨⟨by rw [hgiven]; exact hinv, ?_, fun hne => ?_⟩, hext⟩
  · rw [hgiven]
    exact OkTasks.mono J hext h.ok
  · exact hext.cancelled (h.cancelled (hgiven ▸ hne))

/-- A task that has come to results leaves no call under way. -/
theorem leaves_finished {d e : Desk} {rest : Multiset Ongoing} {names : List String}
    {rs : List ProducerResult} (h : J.Sound e rest) (hext : d.board.Extends e.board)
    (hright : ∀ r ∈ rs, J.Right e.board r) (hnames : (rs.map (·.name)).Perm names) :
    J.Leaves d rest names (e, .finished (.results rs)) :=
  ⟨(Multiset.zero_add rest).symm ▸ h, hext, hright, hnames⟩

/-! ## Calls -/

theorem leaves_receive {d : Desk} {rest : Multiset Ongoing} {p : Producer} {r : ProducerResult}
    (h : J.Sound d rest) (hpre : J.Pre d.board (.call p))
    (hcell : d.board.cells p.id = some (.settled r)) :
    J.Leaves d rest [p.name] (Run.receive d p r) := by
  obtain ⟨hname, hright⟩ := J.settled h.inv hpre hcell
  obtain ⟨hsound, hext⟩ :=
    h.deed (e := { d with board := d.board.hand p r }) rfl rfl (.hand hpre hcell)
  refine leaves_finished hsound hext (fun q hq => ?_) (by simp [hname])
  rw [List.mem_singleton.1 hq]
  exact J.right_mono hext hright

/-- A deed that settles the cell of a producer and hands the result over leaves that result. -/
theorem leaves_settle {d e : Desk} {c : Board} {rest : Multiset Ongoing} {p : Producer}
    {calls : Multiset Ongoing} {r : ProducerResult} (h : J.Sound d (calls + rest))
    (hpre : J.Pre d.board (.call p)) (hboard : e.board = c) (hgiven : e.givenUp = d.givenUp)
    (hcell : c.cells p.id = some (.settled r))
    (hdeed : Deed s (fun b p => J.Pre b (.call p)) J.Right d.board
      (↑(tasksOngoing d.givenUp) + (calls + rest)) c (↑(tasksOngoing d.givenUp) + rest)) :
    J.Leaves d rest [p.name] (e, .finished (.results [r])) := by
  obtain ⟨hsound, hext⟩ := h.deed hboard hgiven hdeed
  subst hboard
  obtain ⟨hname, hright⟩ := J.settled hsound.inv (J.pre_mono hext hpre) hcell
  refine leaves_finished hsound hext (fun q hq => ?_) (by simp [hname])
  rw [List.mem_singleton.1 hq]
  exact hright

theorem leaves_complete {d : Desk} {rest : Multiset Ongoing} {o : Ongoing}
    (h : J.Sound d (o ::ₘ rest)) (hdue : o.due.any (· ≤ d.board.now) = true) :
    J.Leaves d rest [o.producer.name] (Run.complete s d o) := by
  obtain ⟨hcell, hpre⟩ := J.ongoing h.inv (o := o) (by simp)
  unfold Run.complete Run.settle
  rw [hcell, if_pos rfl, ← Multiset.singleton_add] at *
  refine leaves_settle (c := (((d.board.mark o.call .answered).look o.producer).setCell
    o.producer.id (.settled (Run.callResult s d.board o))).hand o.producer
      (Run.callResult s d.board o)) h hpre rfl rfl ?_ ?_
  · exact Board.cells_setCell_self _ _ _
  · rw [Multiset.singleton_add, Multiset.add_cons]
    exact .complete hdue

theorem sound_cancel {d : Desk} {calls : Multiset Ongoing} (h : J.Sound d calls)
    (hmay : s.MayCancel) : J.Sound d.cancel calls ∧ d.board.Extends d.cancel.board := by
  unfold Desk.cancel
  split
  · exact ⟨h, Board.Extends.refl _⟩
  · exact h.deed rfl rfl (.cancel hmay)

theorem sound_sent {d : Desk} {rest : Multiset Ongoing} {p : Producer} {cell : Cell}
    {expected : List Nat} {request : BackendRequest} (line : List Nat) (h : J.Sound d rest)
    (hpre : J.Pre d.board (.call p)) (hcell : d.board.cells p.id = some cell)
    (hfree : cell.isFree = true) (hlive : d.board.cancelled = false)
    (hprepare : p.prepare s.client d.board.results = .ok (expected, request)) :
    let e : Desk := { d with board := d.board.setCell p.id (.taken line) }
    J.Sound (Run.sent s e p request)
        (d.board.underway s d.task d.turn p expected request ::ₘ rest) ∧
      d.board.Extends (Run.sent s e p request).board := by
  intro e
  let e' : Desk := { e with board := (e.board.look p).enter p request }
  obtain ⟨hsound, hext⟩ : J.Sound e' (d.board.underway s d.task d.turn p expected request ::ₘ rest) ∧
      d.board.Extends e'.board := by
    refine h.deed rfl rfl ?_
    rw [Multiset.add_cons]
    exact .send d.task d.turn hlive hpre hcell hfree hprepare
  show J.Sound (if _ then e'.cancel else e') _ ∧ d.board.Extends (if _ then e'.cancel else e').board
  split
  · next hcancels =>
    obtain ⟨hsound', hext'⟩ := sound_cancel hsound (.inr (.inr ⟨p, _, request, hcancels⟩))
    exact ⟨hsound', hext.trans hext'⟩
  · exact ⟨hsound, hext⟩

theorem leaves_takeCell {d : Desk} {rest : Multiset Ongoing} {p : Producer} {cell : Cell}
    {line : List Nat} (h : J.Sound d rest) (hpre : J.Pre d.board (.call p))
    (hcell : d.board.cells p.id = some cell) (hfree : cell.isFree = true) :
    J.Leaves d rest [p.name] (Run.takeCell s d p line) := by
  have h₀ : J.Sound d (0 + rest) := by rwa [Multiset.zero_add]
  unfold Run.takeCell
  cases hcancelled : d.board.cancelled with
  | true =>
    rw [Run.invoke_of_cancelled (by exact hcancelled)]
    refine leaves_settle (c := (d.board.setCell p.id (.settled (.failed p.name .cancelled))).hand p
      (.failed p.name .cancelled)) h₀ hpre ?_ rfl (Board.cells_setCell_self _ _ _) ?_
    · exact congrArg (Board.hand · p (.failed p.name .cancelled)) (Board.setCell_setCell d.board _ _ _)
    · rw [Multiset.zero_add]
      exact .refuse hcancelled hpre hcell hfree
  | false =>
    cases hprepare : p.prepare s.client d.board.results with
    | error f =>
      rw [Run.invoke_of_error (by exact hcancelled) (by exact hprepare)]
      refine leaves_settle (c := (((d.board.look p).setCell p.id (.settled (.failed p.name f)))).hand
        p (.failed p.name f)) h₀ hpre ?_ rfl (Board.cells_setCell_self _ _ _) ?_
      · exact congrArg (Board.hand · p (.failed p.name f)) (Board.setCell_setCell (d.board.look p) _ _ _)
      · rw [Multiset.zero_add]
        exact .decline hcancelled hpre hcell hfree hprepare
    | ok made =>
      obtain ⟨expected, request⟩ := made
      obtain ⟨hsound, hext⟩ := sound_sent line h hpre hcell hfree hcancelled hprepare
      rw [Run.invoke_of_ok (by exact hcancelled) (by exact hprepare)]
      show J.Leaves d rest [p.name] (if _ then _ else _)
      split
      · -- a backend that answers at once is answered within the turn
        next hdelay =>
        refine (leaves_complete hsound ?_).rebase hext
        have hdue : (d.board.underway s d.task d.turn p expected request).due
            = some (d.board.now + 0) := congrArg (Option.map _) hdelay
        rw [hdue, Run.now_sent]
        exact decide_eq_true (Nat.le_refl d.board.now)
      · exact ⟨by rw [Activity.ongoing, Multiset.coe_singleton, Multiset.singleton_add]; exact hsound,
          hext, trivial, List.Perm.refl _⟩

theorem leaves_requeue {d : Desk} {rest : Multiset Ongoing} {p : Producer} {cell cell' : Cell}
    (h : J.Sound d rest) (hpre : J.Pre d.board (.call p)) (hcell : d.board.cells p.id = some cell)
    (hline : cell.Requeued cell') :
    J.Leaves d rest [p.name] ({ d with board := d.board.setCell p.id cell' }, .waiting p) := by
  obtain ⟨hsound, hext⟩ := h.deed (e := { d with board := d.board.setCell p.id cell' }) rfl rfl
    (.requeue hcell hline)
  exact ⟨(Multiset.zero_add rest).symm ▸ hsound, hext, J.pre_mono hext hpre, List.Perm.refl _⟩

theorem leaves_waiting {d : Desk} {rest : Multiset Ongoing} {p : Producer} (h : J.Sound d rest)
    (hpre : J.Pre d.board (.call p)) : J.Leaves d rest [p.name] (d, .waiting p) :=
  ⟨(Multiset.zero_add rest).symm ▸ h, .refl _, hpre, List.Perm.refl _⟩

theorem leaves_request {d : Desk} {rest : Multiset Ongoing} {p : Producer} (h : J.Sound d rest)
    (hpre : J.Pre d.board (.call p)) : J.Leaves d rest [p.name] (Run.request s d p) := by
  obtain ⟨cell, hcell⟩ := Option.isSome_iff_exists.1 (J.cell h.inv hpre)
  unfold Run.request
  rw [hcell]
  cases cell with
  | settled r => exact leaves_receive h hpre hcell
  | vacant => exact leaves_takeCell h hpre hcell rfl
  | taken line => exact leaves_requeue h hpre hcell (Cell.requeued_join _ _)
  | offered first line => exact leaves_requeue h hpre hcell (Cell.requeued_join _ _)

theorem leaves_recheck {d : Desk} {rest : Multiset Ongoing} {p : Producer} (h : J.Sound d rest)
    (hpre : J.Pre d.board (.call p)) : J.Leaves d rest [p.name] (Run.recheck s d p) := by
  obtain ⟨cell, hcell⟩ := Option.isSome_iff_exists.1 (J.cell h.inv hpre)
  unfold Run.recheck
  rw [hcell]
  cases cell with
  | settled r => exact leaves_receive h hpre hcell
  | vacant => exact leaves_waiting h hpre
  | taken line => exact leaves_waiting h hpre
  | offered first line =>
    show J.Leaves d rest [p.name] (if _ then _ else _)
    split
    · exact leaves_takeCell h hpre hcell rfl
    · exact leaves_waiting h hpre

theorem leaves_pollCall {d : Desk} {rest : Multiset Ongoing} {o : Ongoing}
    (h : J.Sound d (o ::ₘ rest)) : J.Leaves d rest [o.producer.name] (Run.pollCall s d o) := by
  obtain ⟨hcell, hpre⟩ := J.ongoing h.inv (o := o) (by simp)
  unfold Run.pollCall
  split
  · next hcancelled =>
    unfold Run.settle
    rw [hcell, if_pos rfl, ← Multiset.singleton_add] at *
    refine leaves_settle h hpre rfl rfl (Board.cells_setCell_self _ _ _) ?_
    rw [Multiset.singleton_add, Multiset.add_cons]
    exact .abandon hcancelled rfl
  · split
    · next hdue => exact leaves_complete h hdue
    · exact ⟨by rw [Activity.ongoing, Multiset.coe_singleton, Multiset.singleton_add]; exact h,
        .refl _, trivial, List.Perm.refl _⟩

/-! ## Giving up -/

theorem sound_giveUp {d : Desk} {rest : Multiset Ongoing} {tasks : List (Nat × Activity)}
    (h : J.Sound d (↑(tasksOngoing tasks) + rest)) (hok : J.OkTasks d.board tasks)
    (hcancelled : tasks ≠ [] → d.board.cancelled = true) : J.Sound (d.giveUp tasks) rest where
  inv := by
    show J.Inv d.board (↑(tasksOngoing (d.givenUp ++ tasks)) + rest)
    rw [Activity.tasksOngoing_append, ← Multiset.coe_add, Multiset.add_assoc]
    exact h.inv
  ok := okTasks_append J h.ok hok
  cancelled hne := by
    cases hgiven : d.givenUp with
    | nil => exact hcancelled fun hnil => hne (by rw [Desk.giveUp, Desk.wake, hgiven, hnil]; rfl)
    | cons task others => exact h.cancelled (by rw [hgiven]; exact List.cons_ne_nil _ _)

theorem sound_leaveLine {d : Desk} {rest : Multiset Ongoing} (h : J.Sound d rest) (id : Nat) :
    J.Sound (d.leaveLine id) rest ∧ d.board.Extends (d.leaveLine id).board := by
  unfold Desk.leaveLine
  cases hcell : d.board.cells id with
  | none => exact ⟨h, .refl _⟩
  | some cell => exact h.deed rfl rfl (.requeue hcell (Cell.requeued_leave d.task cell))

/-- What is dropped after a cancellation leaves no call under way. -/
theorem sound_drop {d : Desk} {rest : Multiset Ongoing} :
    ∀ {a : Activity}, J.Sound d (↑a.ongoing + rest) → J.Ok d.board a →
      d.board.cancelled = true → J.Sound (d.drop a) rest ∧ d.board.Extends (d.drop a).board
  | .finished _, h, _, _ => ⟨Multiset.zero_add rest ▸ h, .refl _⟩
  | .spawned _, h, _, _ => ⟨Multiset.zero_add rest ▸ h, .refl _⟩
  | .calling o, h, _, hcancelled => by
    rw [Activity.ongoing, Multiset.coe_singleton, Multiset.singleton_add] at h
    obtain ⟨hcell, -⟩ := J.ongoing h.inv (o := o) (by simp)
    unfold Desk.drop
    rw [if_pos hcell]
    refine h.deed rfl rfl ?_
    rw [Multiset.add_cons]
    exact .release hcancelled (Cell.isFree_release _)
  | .waiting p, h, _, _ => sound_leaveLine (Multiset.zero_add rest ▸ h) p.id
  | .stepping _ _ _ current _, h, hok, hcancelled => by
    unfold Desk.drop
    exact sound_drop (a := current) h hok.2 hcancelled
  | .gathering _ _ _ _ branches, h, hok, hcancelled => by
    unfold Desk.drop
    exact ⟨sound_giveUp h hok.2.2 fun _ => hcancelled, .refl _⟩

/-! ## Beginning and going on -/

theorem tasksNames_eq_nil {b : Board} {tasks : List (Nat × Activity)} (hok : J.OkTasks b tasks)
    (h : tasksNames tasks = []) : tasks = [] := by
  cases tasks with
  | nil => rfl
  | cons task rest => exact absurd (List.append_eq_nil_iff.1 h).1 hok.1.1

/-- A parallel whose branches are in order has no more results than it announced. -/
theorem Ok.take_gathered {b : Board} {since : Nat} {names : List String}
    {collected arrived : List ProducerResult} {branches : List (Nat × Activity)}
    (hok : J.Ok b (.gathering since names collected arrived branches)) :
    (collected ++ arrived).take names.length = collected ++ arrived := by
  refine List.take_of_length_le ?_
  have hlength := hok.1.length_eq
  rw [List.length_append, List.length_map] at hlength
  exact hlength ▸ Nat.le_add_right _ _

/-- Before a cancellation a parallel ends only when none of its branches is left: as long as one
is, there are more names than results. -/
theorem Ok.cancelled_of_left {b : Board} {since : Nat} {names : List String}
    {collected arrived : List ProducerResult} {branches : List (Nat × Activity)}
    (hok : J.Ok b (.gathering since names collected arrived branches))
    (hend : (b.cancelled || names.length ≤ (collected ++ arrived).length || branches.isEmpty) = true)
    (hne : branches ≠ []) : b.cancelled = true := by
  obtain ⟨hnames, -, hbranches⟩ := hok
  cases hcancelled : b.cancelled with
  | true => rfl
  | false =>
    have hlength := hnames.length_eq
    rw [List.length_append, List.length_map] at hlength
    -- every branch that is left announces a name, and no name would be left for it
    refine absurd (tasksNames_eq_nil hbranches (List.eq_nil_of_length_eq_zero ?_)) hne
    simp [hcancelled, hne] at hend
    rw [List.length_append] at hlength
    omega

/-- When no branch is left every name has its result. -/
theorem Ok.completed {b : Board} {since : Nat} {names : List String}
    {collected arrived : List ProducerResult}
    (hok : J.Ok b (.gathering since names collected arrived [])) :
    completedWith names (collected ++ arrived) = collected ++ arrived := by
  refine completedWith_of_perm ?_
  have hnames := hok.1
  rwa [tasksNames, List.flatMap_nil, List.append_nil] at hnames

theorem leaves_collect {d e : Desk} {rest : Multiset Ongoing} {since : Nat} {names : List String}
    {collected arrived : List ProducerResult} {branches : List (Nat × Activity)}
    (hext : d.board.Extends e.board) (h : J.Sound e (↑(tasksOngoing branches) + rest))
    (hok : J.Ok e.board (.gathering since names collected arrived branches)) :
    J.Leaves d rest names (Run.collect e since names collected arrived branches) := by
  have ⟨hnames, hright, hbranches⟩ := hok
  unfold Run.collect
  show J.Leaves d rest names (if _ then _ else _)
  split
  · next hend =>
    rw [Ok.take_gathered hok]
    have hcancelled := Ok.cancelled_of_left hok hend
    refine leaves_finished (sound_giveUp h hbranches hcancelled) hext ?_ (names_completedWith hnames)
    intro r hr
    rcases List.mem_append.1 hr with hr | hr
    · exact hright r hr
    · -- a result that is filled in stands for a branch that is left
      obtain ⟨name, hmissing, rfl⟩ := List.mem_map.1 hr
      refine J.cancelled (hcancelled ?_) rfl
      rintro rfl
      have hnone := Ok.completed hok
      rw [completedWith, List.append_right_eq_self, List.map_eq_nil_iff] at hnone
      rw [hnone] at hmissing
      cases hmissing
  · refine ⟨h, hext, ⟨?_, ?_, hbranches⟩, List.Perm.refl _⟩
    · rwa [List.append_nil]
    · rwa [List.append_nil]

end Discipline

end Gateway
