import Gateway.Proofs.Run.Row
import Gateway.Proofs.Run.Timing

/-!
# Gateway.Proofs.Run.Schedule — runs go through, and on time

When nobody has anything to do and the plan is not finished, some call is under way, and every
producer whose needs are done has begun: somebody would have had to begin it. So the run never
stalls, and the times still fit once the clock has moved on. In the end everybody is done.

The clock is what makes this more than bookkeeping. While a run stands at one time, deeds keep the times
right one after the other (`Timing`), since a producer that begins does so now. When the clock moves,
nothing happens on the board, and everything that has not begun is late from then on. So one has to know
that nothing was left that could have begun, and this is a statement about the whole plan: whoever is
not done and has all it needs stands under a result that the root has yet to yield, and one follows the
activities down to it (`not_vacant`). On the way one meets calls under way, lines of cells, sequences
whose step is not finished and parallels with branches at work. It is at none of these that the producer
could be waiting.

`Course` is what is kept from the opening to the end, and it mentions the row only in that those who have
something to do stand in it. So it serves every prompt run (`Prompt`).
-/

set_option autoImplicit false

namespace Gateway

open Activity (tasksOngoing tasksNames Heard TasksHeard)

namespace Ensemble

variable {E : Ensemble} {s : Setting} {b : Board} {calls : Multiset Ongoing} {p q : Producer}
  {ends : Producer → Nat}

/-! ## The discipline -/

theorem Timing.fresh (E : Ensemble) (s : Setting) (plan : Plan) (cancelled : Bool) :
    E.Timing s (.fresh plan cancelled) 0 fun _ => 0 := by
  have hzero : ∀ ps, latest (fun _ => 0) ps = 0 := fun ps =>
    Nat.le_zero.1 (latest_le fun _ _ => Nat.le_refl 0)
  exact ⟨fun _ _ => Nat.le_refl 0, fun _ _ _ hcall => absurd hcall List.not_mem_nil,
    fun _ _ _ hcall => absurd hcall List.not_mem_nil, fun _ _ _ => (hzero _).symm,
    fun _ _ _ _ _ => hzero _, fun _ => hzero _, fun _ ho => absurd ho (Multiset.notMem_zero _)⟩

/-- What the runs of guarded plans keep if time moves on only when there is nothing else to do. -/
def timed (E : Ensemble) (s : Setting) : Discipline s where
  Inv b calls := E.Sheet s b calls ∧ (b.cancelled = false → ∃ ends, E.Timing s b calls ends)
  Pre := E.May
  Right := E.Right
  pre_mono hbc h := h.mono hbc
  right_mono hbc h := h.mono hbc
  deed hdeed h := by
    obtain ⟨hsheet, hext⟩ := h.1.deed hdeed
    refine ⟨⟨hsheet, fun hlive => ?_⟩, hext⟩
    obtain ⟨ends, htiming⟩ := h.2 (hext.live hlive)
    exact ⟨_, htiming.deed h.1 hdeed hlive⟩
  cell h := (E.discipline s).cell h.1
  ongoing h := (E.discipline s).ongoing h.1
  settled h := (E.discipline s).settled h.1
  stub := (E.discipline s).stub
  step := (E.discipline s).step
  branch := (E.discipline s).branch
  cancelled := (E.discipline s).cancelled
  skip h := (E.discipline s).skip h.1
  next h := (E.discipline s).next h.1

/-! ## When nobody has anything to do -/

/-- Who is at a call is not done, and all that it needs is. -/
theorem Sheet.of_taken (h : E.Sheet s b calls) (hlive : b.cancelled = false) (hp : p ∈ E)
    {line : List Nat} (hcell : b.cells p.id = some (.taken line)) :
    calls ≠ 0 ∧ ¬ E.Done b p ∧ ∀ q ∈ E.needs p, E.Done b q := by
  have hstage := h.ledger.stage p hp
  generalize haccount : b.account calls p = a at hstage
  have hcell' := (congrArg Account.cell haccount).symm.trans hcell
  cases hstage with
  | idle | declined | answered => cases hcell'
  | off hoff => exact absurd hoff (ne_true_of_eq_false hlive)
  | @calling line v start o hcarries =>
    have ho : o ∈ (b.account calls p).ongoing := haccount ▸ Multiset.mem_singleton_self o
    have hsights : b.sightsOf p ≠ [] := by
      rw [show b.sightsOf p = [v] from congrArg Account.sights haccount]
      exact List.cons_ne_nil _ _
    have hfine := fun q (hq : q ∈ E.needs p) => h.fine_of_sightsOf hp hsights hq
    refine ⟨fun hzero => ?_, h.not_done hlive (fun r hr => ?_) hfine, fun q hq => ?_⟩
    · rw [hzero] at ho
      exact Multiset.notMem_zero o ho
    · cases hcell.symm.trans hr
    · obtain ⟨r, -, hsettled, -⟩ := hfine q hq
      exact .settled (mem_of_needs hp hq) hsettled

theorem Sheet.taken_of_mem (h : E.Sheet s b calls) {o : Ongoing} (ho : o ∈ calls) :
    o.producer ∈ E ∧ ∃ line, b.cells o.producer.id = some (.taken line) := by
  obtain ⟨line, v, start, -, haccount⟩ := h.ledger.account_of_mem ho
  exact ⟨h.ledger.known o ho, line, congrArg Account.cell haccount⟩

/-- Who waits in a line waits for a call. -/
theorem taken_of_heard {task : Nat} (hheard : Heard b (fun _ => False) task (.waiting p)) :
    ∃ line, b.cells p.id = some (.taken line) := by
  obtain ⟨line, hcell, -⟩ := hheard.resolve_right fun hsettled => hsettled.1
  exact ⟨line, hcell⟩

mutual

/-- Then whoever is not finished has to yield a result of a producer that is not done, and a call is
under way. -/
theorem Sheet.exists_not_done (h : E.Sheet s b calls) (hlive : b.cancelled = false) {task : Nat} :
    ∀ {a : Activity}, (E.timed s).Ok b a → (∀ o ∈ a.ongoing, o ∈ calls) →
      Heard b (fun _ => False) task a → a.isFinished = false →
      calls ≠ 0 ∧ ∃ q ∈ E, q.name ∈ a.names ∧ ¬ E.Done b q
  | .finished _, _, _, _, hworking => absurd hworking (by simp [Activity.isFinished])
  | .spawned _, _, _, hheard, _ => hheard.elim
  | .calling o, _, hcalls, _, _ => by
    obtain ⟨hp, line, hcell⟩ := h.taken_of_mem (hcalls o (List.mem_singleton_self o))
    obtain ⟨hne, hnot, -⟩ := h.of_taken hlive hp hcell
    exact ⟨hne, _, hp, List.mem_singleton_self _, hnot⟩
  | .waiting p, hok, _, hheard, _ => by
    have hp : p ∈ E := hok.ready.1
    obtain ⟨line, hcell⟩ := taken_of_heard hheard
    obtain ⟨hne, hnot, -⟩ := h.of_taken hlive hp hcell
    exact ⟨hne, p, hp, List.mem_singleton_self _, hnot⟩
  | .stepping _ _ names current rest, hok, hcalls, hheard, _ => by
    obtain ⟨⟨step, hperm, rfl, known, hgood, hguarded⟩, hok⟩ := hok
    obtain ⟨hne, q, hq, hname, hnot⟩ :=
      h.exists_not_done hlive (a := current) hok hcalls hheard.2 hheard.1
    have hstep : q.name ∈ step.names := hperm.mem_iff.1 hname
    refine ⟨hne, ?_⟩
    cases rest with
    | nil => exact ⟨q, hq, hstep, hnot⟩
    | cons second others =>
      -- the sequence yields for the call behind the step, whose producer needs `q`
      obtain ⟨p, heq, hready, hneeds⟩ := hguarded.2.exists_call (List.cons_ne_nil _ _)
      cases heq
      obtain ⟨d, hd, hdname⟩ := hneeds q.name hstep
      cases E.eq_of_name (mem_of_needs hready.1 hd) hq hdname
      refine ⟨p, hready.1, List.mem_singleton_self _, fun hdone => hnot ?_⟩
      exact (h.done_needs hlive hdone hd).1
  | .gathering _ _ _ _ branches, ⟨hperm, _, hok⟩, hcalls, ⟨hleft, hheard⟩, _ => by
    obtain ⟨hne, q, hq, hname, hnot⟩ :=
      h.exists_tasks_not_done hlive hok hcalls hheard (hleft.resolve_left id).2
    exact ⟨hne, q, hq, hperm.mem_iff.2 (List.mem_append_right _ hname), hnot⟩

theorem Sheet.exists_tasks_not_done (h : E.Sheet s b calls) (hlive : b.cancelled = false) :
    ∀ {tasks : List (Nat × Activity)}, (E.timed s).OkTasks b tasks →
      (∀ o ∈ tasksOngoing tasks, o ∈ calls) → TasksHeard b (fun _ => False) tasks → tasks ≠ [] →
      calls ≠ 0 ∧ ∃ q ∈ E, q.name ∈ tasksNames tasks ∧ ¬ E.Done b q
  | [], _, _, _, hne => absurd rfl hne
  | (_, a) :: rest, ⟨⟨_, hok⟩, _⟩, hcalls, hheard, _ => by
    obtain ⟨hne, q, hq, hname, hnot⟩ := h.exists_not_done hlive (a := a) hok
      (fun o ho => hcalls o (List.mem_append_left _ ho)) hheard.1.2 hheard.1.1
    exact ⟨hne, q, hq, List.mem_append_left _ hname, hnot⟩

end

/-- Nobody is left out under a producer that is at its call. -/
theorem Sheet.not_vacant_of_taken (h : E.Sheet s b calls) (hlive : b.cancelled = false)
    (hq : q ∈ E) {line : List Nat} (hcell : b.cells q.id = some (.taken line))
    (hunder : E.Under q p) (hnot : ¬ E.Done b p) : b.cells p.id ≠ some .vacant := by
  rcases Relation.ReflTransGen.cases_head hunder with rfl | ⟨d, hd, hdp⟩
  · intro hvacant
    cases hcell.symm.trans hvacant
  · exact absurd (h.done_under hlive ((h.of_taken hlive hq hcell).2.2 d hd) hdp) hnot

/-- Nobody is left out under a producer that has a right result, either. -/
theorem Sheet.done_of_right (h : E.Sheet s b calls) (hlive : b.cancelled = false)
    {rs : List ProducerResult} (hright : ∀ r ∈ rs, E.Right b r) (hq : q ∈ E)
    (hname : q.name ∈ rs.map (·.name)) (hunder : E.Under q p) : E.Done b p := by
  obtain ⟨r, hr, hrname⟩ := List.mem_map.1 hname
  obtain ⟨q', hq', hname', hdone, -⟩ := (hright r hr).done hlive
  cases E.eq_of_name hq' hq (hname'.trans hrname)
  exact h.done_under hlive hdone hunder

mutual

/-- Then a producer whose needs are done has begun, if it is under one whose result an activity has to
yield. -/
theorem Sheet.not_vacant (h : E.Sheet s b calls) (hlive : b.cancelled = false)
    (hnot : ¬ E.Done b p) (hneeds : ∀ d ∈ E.needs p, E.Done b d) {task : Nat} :
    ∀ {a : Activity} {q : Producer}, (E.timed s).Ok b a → (∀ o ∈ a.ongoing, o ∈ calls) →
      Heard b (fun _ => False) task a → q ∈ E → q.name ∈ a.names → E.Under q p →
      b.cells p.id ≠ some .vacant
  | .finished (.results rs), _, hok, _, _, hq, hname, hunder =>
    absurd (h.done_of_right hlive hok hq hname hunder) hnot
  | .finished (.panic _), _, hok, _, _, _, _, _ => hok.elim
  | .spawned _, _, _, _, hheard, _, _, _ => hheard.elim
  | .calling o, _, _, hcalls, _, hq, hname, hunder => by
    obtain ⟨hp, line, hcell⟩ := h.taken_of_mem (hcalls o (List.mem_singleton_self o))
    cases E.eq_of_name hq hp (List.mem_singleton.1 hname)
    exact h.not_vacant_of_taken hlive hp hcell hunder hnot
  | .waiting _, _, hok, _, hheard, hq, hname, hunder => by
    obtain ⟨line, hcell⟩ := taken_of_heard hheard
    cases E.eq_of_name hq hok.ready.1 (List.mem_singleton.1 hname)
    exact h.not_vacant_of_taken hlive hq hcell hunder hnot
  | .stepping _ _ names current rest, q, hok, hcalls, hheard, hq, hname, hunder => by
    obtain ⟨⟨step, hperm, rfl, known, hgood, hguarded⟩, hok⟩ := hok
    cases rest with
    | nil =>
      have hname : q.name ∈ current.names := hperm.mem_iff.2 hname
      exact h.not_vacant hlive hnot hneeds (a := current) hok hcalls hheard.2 hq hname hunder
    | cons second others =>
      obtain ⟨last, heq, hready, hlast⟩ := hguarded.2.exists_call (List.cons_ne_nil _ _)
      cases heq
      cases E.eq_of_name hq hready.1 (List.mem_singleton.1 hname)
      rcases Relation.ReflTransGen.cases_head hunder with rfl | ⟨d, hd, hdp⟩
      · -- the last step is not due, since the one before it is not finished
        obtain ⟨-, e, he, hename, henot⟩ :=
          h.exists_not_done hlive (a := current) hok hcalls hheard.2 hheard.1
        obtain ⟨d, hd, hdname⟩ := hlast e.name (hperm.mem_iff.1 hename)
        cases E.eq_of_name (mem_of_needs hready.1 hd) he hdname
        exact absurd (hneeds _ hd) henot
      · rcases hready.2 d hd with hknown | ⟨e, he, hename, hed⟩
        · obtain ⟨hdmem, r, -, hcell, -⟩ := hgood d hknown
          exact absurd (h.done_under hlive (.settled hdmem hcell) hdp) hnot
        · exact h.not_vacant hlive hnot hneeds (a := current) hok hcalls hheard.2 he
            (hperm.mem_iff.2 hename) (hed.trans hdp)
  | .gathering _ _ collected arrived branches, _, hok, hcalls, hheard, hq, hname, hunder => by
    obtain ⟨hperm, hright, hok⟩ := hok
    rcases List.mem_append.1 (hperm.mem_iff.1 hname) with hname | hname
    · exact absurd (h.done_of_right hlive hright hq hname hunder) hnot
    · exact h.tasks_not_vacant hlive hnot hneeds hok hcalls hheard.2 hq hname hunder

theorem Sheet.tasks_not_vacant (h : E.Sheet s b calls) (hlive : b.cancelled = false)
    (hnot : ¬ E.Done b p) (hneeds : ∀ d ∈ E.needs p, E.Done b d) :
    ∀ {tasks : List (Nat × Activity)} {q : Producer}, (E.timed s).OkTasks b tasks →
      (∀ o ∈ tasksOngoing tasks, o ∈ calls) → TasksHeard b (fun _ => False) tasks → q ∈ E →
      q.name ∈ tasksNames tasks → E.Under q p → b.cells p.id ≠ some .vacant
  | [], _, _, _, _, _, hname, _ => absurd hname List.not_mem_nil
  | (_, a) :: rest, _, ⟨⟨_, hok⟩, hoks⟩, hcalls, hheard, hq, hname, hunder => by
    rcases List.mem_append.1 hname with hname | hname
    · exact h.not_vacant hlive hnot hneeds (a := a) hok
        (fun o ho => hcalls o (List.mem_append_left _ ho)) hheard.1.2 hq hname hunder
    · exact h.tasks_not_vacant hlive hnot hneeds hoks
        (fun o ho => hcalls o (List.mem_append_right _ ho)) hheard.2 hq hname hunder

end

/-! ## When time moves on -/

theorem FailedWith.of_cells {c : Board} {f : Failure} (hcells : b.cells = c.cells)
    (h : E.FailedWith b p f) : E.FailedWith c p f := by
  induction h with
  | own hp hcell hfailure => exact .own hp (hcells ▸ hcell) hfailure
  | needs hp hd _ ih => exact .needs hp hd ih

theorem Done.of_wait {time : Nat} (h : E.Done (b.wait time) p) : E.Done b p := by
  induction h with
  | settled hp hcell => exact .settled hp hcell
  | skipped hp hd hfailed hpublished _ ih =>
    have hcells : (b.wait time).cells = b.cells := rfl
    exact .skipped hp hd (hfailed.of_cells hcells) hpublished ih

/-- The clock may move on to the time at which the first call is due if everybody who could begin
has, and somebody is not done. -/
theorem Timing.wait (h : E.Timing s b calls ends) {time : Nat}
    (hbegun : ∀ p ∈ E, ¬ E.Done b p → (∀ q ∈ E.needs p, E.Done b q) →
      b.cells p.id ≠ some .vacant)
    (hlate : ∃ p ∈ E, ¬ E.Done b p) (hdue : ∀ o ∈ calls, ∀ due, o.due = some due → time ≤ due) :
    E.Timing s (b.wait time) calls ends where
  past p hdone := Nat.le_trans (h.past p hdone.of_wait) (Nat.le_max_left _ _)
  start := h.start
  called p hdone := h.called p hdone.of_wait
  uncalled p hdone := h.uncalled p hdone.of_wait
  ready p hp hcell hnot hneeds := by
    -- nobody is about to begin, so nobody begins later than it could
    refine absurd hcell (hbegun p hp (fun hdone => hnot ?_) fun q hq => (hneeds q hq).of_wait)
    exact hdone.mono (b.extends_wait time)
  last hall := by
    obtain ⟨p, hp, hnot⟩ := hlate
    exact absurd (hall p hp).of_wait hnot
  due o ho due hwhen := Nat.max_le.2 ⟨h.due o ho due hwhen, hdue o ho due hwhen⟩

/-- All producers are under those of some names. -/
def Covered (E : Ensemble) (names : List String) : Prop :=
  ∀ p ∈ E, ∃ t ∈ E, t.name ∈ names ∧ E.Under t p

/-- A run of a plan on its way: whoever has something to do stands in the row, and the times fit. -/
structure Course (E : Ensemble) (s : Setting) (names : List String) (w : Work) : Prop where
  kept : (E.timed s).Kept w
  awake : w.board.cancelled = false → w.Awake
  names : w.root.names.Perm names

namespace Course

variable {w v : Work} {names : List String}

theorem stepped (hs : s.Answering) (h : E.Course s names w) (hstep : w.Stepped s v) :
    E.Course s names v := by
  obtain ⟨hkept, hext, hnames⟩ := h.kept.stepped hstep
  exact ⟨hkept, fun hlive => (h.awake (hext.live hlive)).stepped hs h.kept hstep hlive,
    hnames.trans h.names⟩

/-- A plan that is not finished when the row is empty waits for a call, which is due later. -/
theorem waits (hs : s.Answering) (h : E.Course s names w) (hlive : w.board.cancelled = false)
    (hready : w.ready = []) (hroot : w.root.isFinished = false) :
    (∃ q ∈ E, ¬ E.Done w.board q) ∧ (∃ time, time ∈ w.moments s) ∧
      ∀ o ∈ w.ongoing, ∀ due, o.due = some due → due ∈ w.moments s := by
  have hquiet := (h.awake hlive).quiet hready
  have honly : w.ongoing = w.root.ongoing := by
    rw [Work.ongoing, h.kept.givenUp_eq_nil hlive]
    exact List.append_nil _
  have hmoment : ∀ o ∈ w.ongoing, ∀ due, o.due = some due → due ∈ w.moments s := by
    intro o ho due hwhen
    refine List.mem_filter.2 ⟨List.mem_append_left _ (List.mem_filterMap.2 ⟨o, ho, hwhen⟩), ?_⟩
    have hnow := hquiet.heard.not_due (fun _ => id) o (honly ▸ ho)
    rw [hwhen, Option.any_some, decide_eq_false_iff_not] at hnow
    exact decide_eq_true (Nat.lt_of_not_le hnow)
  obtain ⟨hne, q, hq, -, hnot⟩ := h.kept.inv.1.exists_not_done hlive h.kept.root
    (fun o ho => Multiset.mem_coe.2 (honly ▸ ho)) hquiet.heard hroot
  refine ⟨⟨q, hq, hnot⟩, ?_, hmoment⟩
  -- some call is under way, and its backend answers in the end
  obtain ⟨o, ho⟩ := Multiset.exists_mem_of_ne_zero hne
  obtain ⟨start, -, hwhen⟩ := h.kept.inv.1.ledger.running ho
  obtain ⟨delay, hdelay⟩ := Option.isSome_iff_exists.1 (hs.delayed o.producer 0 o.request)
  rw [show (s.reply o.producer o.request).delay = some delay from hdelay] at hwhen
  exact ⟨_, hmoment o (Multiset.mem_coe.1 ho) _ hwhen⟩

theorem advance (hs : s.Answering) (hcovered : E.Covered names) (h : E.Course s names w)
    (hready : w.ready = []) (hroot : w.root.isFinished = false) {time : Nat}
    (htime : (w.moments s).min? = some time) : E.Course s names (w.advance s time) := by
  have hext := w.board.extends_wait time
  refine ⟨⟨⟨?_, fun hlive => ?_⟩, h.kept.root.mono _ hext, h.kept.tasks.mono _ hext,
    h.kept.cancelled⟩, fun hlive => ((h.awake hlive).quiet hready).advance time, h.names⟩
  · exact Ensemble.patient_discipline E s time h.kept.inv.1
  · have hlive : w.board.cancelled = false := hlive
    obtain ⟨ends, htiming⟩ := h.kept.inv.2 hlive
    obtain ⟨hlate, -, hmoment⟩ := h.waits hs hlive hready hroot
    refine ⟨ends, htiming.wait (fun p hp hnot hneeds => ?_) hlate fun o ho due hwhen => ?_⟩
    · -- whoever has all it needs stands under a result that the root has to yield, and has begun
      obtain ⟨t, ht, hname, hunder⟩ := hcovered p hp
      refine h.kept.inv.1.not_vacant hlive hnot hneeds h.kept.root (fun o ho => ?_)
        ((h.awake hlive).quiet hready).heard ht (h.names.mem_iff.2 hname) hunder
      exact Multiset.mem_coe.2 (List.mem_append_left _ ho)
    · exact (List.min?_eq_some_iff.1 htime).2 due (hmoment o (Multiset.mem_coe.1 ho) due hwhen)

/-- A run that is not cancelled finishes. -/
theorem finish (hs : s.Answering) (hcovered : E.Covered names) (h : E.Course s names w)
    (hlive : (w.finish s).1.board.cancelled = false) :
    E.Course s names (w.finish s).1 ∧ ∃ yield, (w.finish s).2 = .finished yield := by
  fun_induction Work.finish s w with
  | case1 w yield hroot => exact ⟨h, yield, rfl⟩
  | case2 w v hstep hroot ih => exact ih (h.stepped hs (Work.stepped hstep)) hlive
  | case3 w => exact absurd w.cancelled_drop (ne_true_of_eq_false hlive)
  | case4 w hstep time htime _ hroot ih =>
    have hroot := Activity.isFinished_eq_false hroot
    exact ih (h.advance hs hcovered (Work.ready_of_step? hstep) hroot htime) hlive
  | case5 w => exact absurd w.cancelled_drop (ne_true_of_eq_false hlive)
  | case6 w hstep hnone _ hroot =>
    have hroot := Activity.isFinished_eq_false hroot
    obtain ⟨-, ⟨time, htime⟩, -⟩ := h.waits hs hlive (Work.ready_of_step? hstep) hroot
    rw [List.min?_eq_none_iff.1 hnone] at htime
    exact absurd htime List.not_mem_nil

end Course

/-! ## In the end -/

end Ensemble

/-- What became of a producer, given the times at which producers ended and those it needs. It looks
at the results when all that it needs ended with a good result, and not otherwise. If it can make
its request then, it is called once, when the last of them has ended, and ends with the reply;
otherwise it is not called and ends with the last of them. -/
structure Board.Scheduled (s : Setting) (b : Board) (ends : Producer → Nat) (needs : List Producer)
    (p : Producer) : Prop where
  looked : (b.sightsOf p).head?.isSome = true ↔
    ∀ q ∈ needs, ∃ r, b.results.get? q.name = some r ∧ r.isOk = true
  called : ∀ v ∈ (b.sightsOf p).head?, ∀ expected request,
    p.prepare s.client v = .ok (expected, request) →
      b.callsOf p = [⟨p, request, latest ends needs, .answered⟩] ∧
      (s.reply p request).delay.map (latest ends needs + ·) = some (ends p)
  declined : ∀ v ∈ (b.sightsOf p).head?, ∀ f, p.prepare s.client v = .error f →
    b.callsOf p = [] ∧ ends p = latest ends needs
  skipped : (b.sightsOf p).head? = none → b.callsOf p = [] ∧ ends p = latest ends needs

theorem Board.Scheduled.answered {s : Setting} {b : Board} {ends : Producer → Nat}
    {needs : List Producer} {p : Producer} (h : b.Scheduled s ends needs p) {call : Call}
    (hcall : call ∈ b.callsOf p) : call.state = .answered := by
  cases hlook : (b.sightsOf p).head? with
  | none =>
    rw [(h.skipped hlook).1] at hcall
    exact absurd hcall List.not_mem_nil
  | some v =>
    cases hprepare : p.prepare s.client v with
    | error f =>
      rw [(h.declined v hlook f hprepare).1] at hcall
      exact absurd hcall List.not_mem_nil
    | ok made =>
      rw [(h.called v hlook made.1 made.2 hprepare).1] at hcall
      exact congrArg Call.state (List.mem_singleton.1 hcall)

namespace Work

/-- When the root is finished and nothing was given up, no turn makes a call. -/
theorem calls_take {s : Setting} {w : Work} (turn : Turn) (hroot : w.root.isFinished = true)
    (hgiven : w.givenUp = []) :
    (w.take s turn).board.calls = w.board.calls ∧ (w.take s turn).root.isFinished = true ∧
      (w.take s turn).givenUp = [] := by
  obtain ⟨yield, heq⟩ := Activity.exists_finished hroot
  have htaken := w.taken s turn
  generalize w.take s turn = v at htaken ⊢
  cases htaken with
  | idle => exact ⟨rfl, hroot, hgiven⟩
  | cancellation => exact ⟨rfl, hroot, hgiven⟩
  | root =>
    obtain ⟨ready, hafter⟩ := after_eq w (w.desk 0) (.finished yield) w.givenUp
    rw [heq, Run.poll, afterRoot, hafter, hgiven]
    exact ⟨rfl, rfl, rfl⟩
  | @branch task _ =>
    obtain ⟨ready, hafter⟩ := after_eq w (w.desk task) (.finished yield) []
    have hvisit : Run.visit s (w.desk task) 0 (.finished yield) =
        (w.desk task, .finished yield) := rfl
    rw [heq, hgiven, hvisit, Run.visitGivenUp, hafter]
    exact ⟨rfl, rfl, rfl⟩

theorem calls_settle {s : Setting} {w : Work} (hroot : w.root.isFinished = true)
    (hgiven : w.givenUp = []) : (w.settle s).board.calls = w.board.calls := by
  fun_induction settle s w with
  | case1 w v hstep ih =>
    obtain ⟨⟨turn, u⟩, hnext, hv⟩ := Option.map_eq_some_iff.1 hstep
    obtain ⟨ready, burst, rfl, -⟩ := next?_eq_some hnext
    obtain ⟨hcalls, hroot', hgiven'⟩ :=
      calls_take (s := s) (w := { w with ready, burst }) turn hroot hgiven
    simp only at hv
    split at hv
    · exact hv ▸ (ih (hv ▸ hroot') (hv ▸ hgiven')).trans (hv ▸ hcalls)
    · exact hv ▸ ih (hv ▸ hroot) (hv ▸ hgiven)
  | case2 => rfl

end Work

namespace Ensemble

variable {E : Ensemble} {s : Setting} {b : Board} {calls : Multiset Ongoing} {p : Producer}
  {ends : Producer → Nat}

/-- Before a cancellation who needs nothing but what has good results is done only with a look at
them. -/
theorem Sheet.looked_iff (h : E.Sheet s b calls) (hlive : b.cancelled = false)
    (hdone : E.Done b p) : (b.sightsOf p).head?.isSome = true ↔
      ∀ q ∈ E.needs p, ∃ r, b.results.get? q.name = some r ∧ r.isOk = true := by
  constructor
  · intro hsome q hq
    have hne : b.sightsOf p ≠ [] := fun hnil => by rw [hnil] at hsome; cases hsome
    obtain ⟨r, hok, -, hget⟩ := h.fine_of_sightsOf hdone.mem hne hq
    exact ⟨r, hget, hok⟩
  · intro hgood
    rw [List.isSome_head?]
    cases hdone with
    | settled hp hcell => exact h.sightsOf_ne_nil hlive hp hcell
    -- it was skipped for a failure of what it needs, but all of that was good
    | skipped hp hd hfailed =>
      obtain ⟨r, hget, hok⟩ := hgood _ hd
      obtain ⟨hmem, hname⟩ := ResultMap.mem_published_of_get? hget
      obtain ⟨q, hq, hqname, hcell⟩ := (h.published r hmem).own hok
      cases E.eq_of_name hq (mem_of_needs hp hd) (hqname.trans hname)
      exact absurd hok (by simp [h.not_ok_of_failed hlive hfailed hcell])

theorem Sheet.scheduled (h : E.Sheet s b calls) (htiming : E.Timing s b calls ends)
    (hlive : b.cancelled = false) (hdone : E.Done b p) :
    b.Scheduled s ends (E.needs p) p := by
  have hp := hdone.mem
  have hlooked := h.looked_iff hlive hdone
  -- a cell that is settled has an account; one that is not was skipped, and nothing happened for it
  by_cases hsettled : ∃ r, b.cells p.id = some (.settled r)
  · obtain ⟨r, hcell⟩ := hsettled
    cases h.ledger.tells_of_live hlive hp hcell with
    | declined hsights hcalls hprepare =>
      have hends : ends p = latest ends (E.needs p) := htiming.uncalled p hdone hcalls
      refine ⟨hlooked, fun v hv expected request hmade => ?_, fun _ _ _ _ => ⟨hcalls, hends⟩,
        fun _ => ⟨hcalls, hends⟩⟩
      rw [hsights] at hv
      cases hv
      cases hprepare.symm.trans hmade
    | @answered v v' expected request start hsights hcalls hprepare =>
      have hmem : ⟨p, request, start, .answered⟩ ∈ b.callsOf p := hcalls ▸ List.mem_singleton_self _
      have hstart : start = latest ends (E.needs p) := htiming.start p hp _ hmem
      obtain ⟨delay, hdelay, hends⟩ := htiming.called p hdone _ hmem
      refine ⟨hlooked, fun u hu expected' request' hmade => ?_, fun u hu f hfailed => ?_, fun hnone => ?_⟩
      · rw [hsights] at hu
        cases hu
        cases hprepare.symm.trans hmade
        rw [hcalls, hends, hdelay, ← hstart]
        exact ⟨rfl, rfl⟩
      · rw [hsights] at hu
        cases hu
        cases hprepare.symm.trans hfailed
      · rw [hsights] at hnone
        cases hnone
  · obtain ⟨-, hcalls, hsights⟩ :=
      h.vacant_of_done hlive hdone fun r hr => hsettled ⟨r, hr⟩
    have hends : ends p = latest ends (E.needs p) := htiming.uncalled p hdone hcalls
    have hnone : ∀ v, v ∉ (b.sightsOf p).head? := fun v hv => by
      rw [hsights] at hv
      cases hv
    exact ⟨hlooked, fun v hv => absurd hv (hnone v), fun v hv => absurd hv (hnone v),
      fun _ => ⟨hcalls, hends⟩⟩

/-- A plan has come to these results: nothing is under way, and nobody is left. -/
structure Settled (E : Ensemble) (s : Setting) (names : List String) (b : Board)
    (rs : List ProducerResult) : Prop where
  live : b.cancelled = false
  sheet : E.Sheet s b 0
  done : ∀ p ∈ E, E.Done b p
  right : ∀ r ∈ rs, E.Right b r
  names : (rs.map (·.name)).Perm names

theorem Sheet.settled (h : E.Sheet s b 0) (hlive : b.cancelled = false) {names : List String}
    {rs : List ProducerResult} (hcovered : E.Covered names) (hright : ∀ r ∈ rs, E.Right b r)
    (hnames : (rs.map (·.name)).Perm names) : E.Settled s names b rs := by
  refine ⟨hlive, h, fun p hp => ?_, hright, hnames⟩
  obtain ⟨t, ht, hname, hunder⟩ := hcovered p hp
  exact h.done_of_right hlive hright ht (hnames.mem_iff.2 hname) hunder

/-- A run of a plan that came to these results, with all calls in its log. -/
structure Complete (E : Ensemble) (s : Setting) (names : List String) (e : Ended)
    (rs : List ProducerResult) : Prop extends E.Settled s names e.board rs where
  outcome : e.outcome = .finished (.results rs)
  timing : ∃ ends, E.Timing s e.board 0 ends
  calls : e.calls = e.board.calls

/-- A run on its way whose root is finished has come to results, and on time. -/
theorem Course.ended {w : Work} {names : List String} {yield : Yield} (hcovered : E.Covered names)
    (h : E.Course s names w) (hlive : w.board.cancelled = false) (hroot : w.root = .finished yield) :
    (∃ rs, yield = .results rs ∧ E.Settled s names w.board rs) ∧
      ∃ ends, E.Timing s w.board 0 ends := by
  obtain ⟨⟨⟨hsheet, htiming⟩, hok, -, -⟩, -, hnames⟩ := id h
  have hnone : w.ongoing = [] := by
    rw [Work.ongoing, hroot, h.kept.givenUp_eq_nil hlive]
    rfl
  rw [hnone, Multiset.coe_nil] at hsheet htiming
  rw [hroot] at hok hnames
  cases yield with
  | panic message => exact hok.elim
  | results rs => exact ⟨⟨rs, rfl, hsheet.settled hlive hcovered hok hnames⟩, htiming hlive⟩

theorem Course.complete (hs : s.Answering) {names : List String} (hcovered : E.Covered names)
    {plan : Plan} (h : E.Course s names (.opening s b plan))
    (hlive : (plan.run s b).board.cancelled = false) :
    ∃ rs, E.Complete s names (plan.run s b) rs := by
  obtain ⟨hcourse, yield, hyield⟩ := h.finish hs hcovered hlive
  have hroot := Work.root_finish hyield
  have hgiven := hcourse.kept.givenUp_eq_nil hlive
  have hcalls := Work.calls_settle (s := s) (by rw [hroot]; rfl) hgiven
  obtain ⟨⟨rs, rfl, hsettled⟩, htiming⟩ := hcourse.ended hcovered hlive hroot
  exact ⟨rs, hsettled, hyield, htiming, hcalls⟩

end Ensemble

end Gateway
