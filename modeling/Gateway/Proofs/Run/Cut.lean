import Gateway.Proofs.Run.Alarm
import Gateway.Proofs.Run.Guard

/-!
# Gateway.Proofs.Run.Cut — how a cancelled run ends

The turn in which a run is cancelled is the last one that can begin a call. From then on the row keeps
the root, so the root is over before time moves on, and everyone who was given up ends as well. When
nobody is left no call is under way: what ran when the run was cut off has been abandoned.

`Subsides` is what happens to a board after that: it is extended, its clock stands still, and of its log
only calls change, from running to abandoned. It is transitive, holds of every step, and so of the rest
of the run. Together with the fact that nothing runs in the end it fixes the log: it is the one at the
cut with every running call abandoned (`calls_eq`), so that nothing about the turns in between has to be
known.

A run that is to be cancelled at a certain time is over by then (`InTime`). This is the only place where
it matters that the clock does not jump over a moment, and it is not clear by itself: the time of the
cancellation is one of the moments, as long as it has not come, and the turn of the cancellation stands
in the row from then on.
-/

set_option autoImplicit false

namespace Gateway

/-- What becomes of a call when the run is cut off. -/
def Call.cutOff (call : Call) : Call := if call.state = .running then call.abandon else call

namespace Board

/-- `c` is `b` some turns later at the same time, in a run that was cancelled before. -/
structure Subsides (b c : Board) : Prop where
  extend : b.Extends c
  now : c.now = b.now
  calls : b.Abandons c

variable {b c d : Board}

theorem Subsides.refl (b : Board) : b.Subsides b := ⟨.refl b, rfl, .refl b⟩

theorem Subsides.trans (h : b.Subsides c) (h' : c.Subsides d) : b.Subsides d :=
  ⟨h.extend.trans h'.extend, h'.now.trans h.now, h.calls.trans h'.calls⟩

/-- When no call runs any more the log is that of the cut. -/
theorem Subsides.calls_eq (h : b.Subsides c) (hnone : ∀ call ∈ c.calls, call.state ≠ .running) :
    c.calls = b.calls.map Call.cutOff := by
  apply List.ext_getElem?
  intro i
  rw [List.getElem?_map]
  cases hb : b.calls[i]? with
  | none => rcases h.calls i with hc | hc <;> rw [hc, hb] <;> rfl
  | some call =>
    obtain ⟨state, hc, hstate⟩ := h.extend.calls hb
    -- a call that ran was abandoned, since none runs any more; the others stay as they were
    by_cases hrun : call.state = .running
    · rcases h.calls i with hsame | habandoned
      · rw [hb] at hsame
        exact absurd hrun (hnone call (List.mem_of_getElem? hsame))
      · rw [habandoned, hb]
        simp [Call.cutOff, hrun]
    · rw [hc, hstate hrun]
      simp [Call.cutOff, hrun]

end Board

namespace Work

variable {s : Setting} {J : Discipline s} {w v : Work} {b : Board} {plan : Plan}

/-! ## Winding up -/

theorem subsides_step (hkept : J.Kept w) (hcancelled : w.board.cancelled = true)
    (hstep : w.step? s = some v) : w.board.Subsides v.board := by
  obtain ⟨-, hext, -⟩ := hkept.step hstep
  cases stepped hstep with
  | @took turn ready burst _ =>
    obtain ⟨-, hnow, hcalls⟩ := silent_take (s := s) (w := { w with ready, burst }) hcancelled turn
    exact ⟨hext, hnow, hcalls⟩
  | passed => exact .refl _

/-- A work of a run that was cancelled: it is in order, and everyone has heard of it. -/
structure Ending (J : Discipline s) (w : Work) : Prop where
  kept : J.Kept w
  alert : w.OnAlert
  cancelled : w.board.cancelled = true

theorem Ending.step (h : w.Ending J) (hstep : w.step? s = some v) :
    v.Ending J ∧ w.board.Subsides v.board := by
  have hsubsides := subsides_step h.kept h.cancelled hstep
  exact ⟨⟨(h.kept.step hstep).1, h.alert.step h.kept hstep, hsubsides.extend.cancelled h.cancelled⟩,
    hsubsides⟩

/-- A root that is over has come to results. -/
theorem results_of_kept {yield : Yield} (h : J.Kept w) (hroot : w.root = .finished yield) :
    ∃ rs, Outcome.finished yield = .finished (.results rs) := by
  have hok := h.root
  rw [hroot] at hok
  cases yield with
  | results rs => exact ⟨rs, rfl⟩
  | panic message => exact absurd hok id

/-- When nobody is ready a root that is at work has not heard of a cancellation. -/
theorem OnAlert.live_of_working (h : w.OnAlert) (hstep : w.step? s = none)
    (hworking : ∀ yield, w.root = .finished yield → False) : w.board.cancelled = false := by
  by_contra hcut
  rw [Bool.not_eq_false] at hcut
  obtain ⟨yield, hroot⟩ := Activity.exists_finished ((h.ended hstep).2 hcut)
  exact hworking yield hroot

/-- A run that is cancelled comes to results at once. -/
theorem Ending.finish (h : w.Ending J) : (w.finish s).1.Ending J ∧
    w.board.Subsides (w.finish s).1.board ∧ ∃ rs, (w.finish s).2 = .finished (.results rs) := by
  -- the row is not empty before the root is over, so the cases in which time passes are absurd
  fun_induction Work.finish s w with
  | case1 w yield hroot => exact ⟨h, .refl _, results_of_kept h.kept hroot⟩
  | case2 w v hstep _ ih =>
    obtain ⟨hv, hsubsides⟩ := h.step hstep
    obtain ⟨hend, hsubsides', hresults⟩ := ih hv
    exact ⟨hend, hsubsides.trans hsubsides', hresults⟩
  | case3 w hstep _ _ _ hworking | case4 w hstep _ _ _ hworking | case5 w hstep _ _ hworking
  | case6 w hstep _ _ hworking =>
    exact absurd h.cancelled (ne_true_of_eq_false (h.alert.live_of_working hstep hworking))

/-- Everyone who was given up ends. -/
theorem Ending.settle (h : w.Ending J) : (w.settle s).Ending J ∧
    w.board.Subsides (w.settle s).board ∧ (w.settle s).ongoing = [] := by
  fun_induction Work.settle s w with
  | case1 w v hstep ih =>
    obtain ⟨hv, hsubsides⟩ := h.step hstep
    obtain ⟨hend, hsubsides', hnone⟩ := ih hv
    exact ⟨hend, hsubsides.trans hsubsides', hnone⟩
  | case2 w hstep =>
    refine ⟨h, .refl _, ?_⟩
    obtain ⟨hgiven, hover⟩ := h.alert.ended hstep
    obtain ⟨yield, hroot⟩ := Activity.exists_finished (hover h.cancelled)
    rw [ongoing, hgiven, hroot]
    rfl

/-! ## The turn that cancels -/

/-- The work of a run right after it was cancelled: before the run, from outside in a turn of its
own, or in the turn of a task that made a call which did it, its last one. -/
inductive Cut (s : Setting) (b : Board) (plan : Plan) : Work → Prop
  | before (hcancelled : b.cancelled = true) (hboard : (opening s b plan).board = b) :
      Cut s b plan (opening s b plan)
  | outside {w : Work} (hw : (opening s b plan).Leads s w) (hlive : w.board.cancelled = false)
      (hcut : (w.take s .cancellation).board.cancelled = true) :
      Cut s b plan (w.take s .cancellation)
  | call {w : Work} {task i : Nat} (hw : (opening s b plan).Leads s w)
      (hlive : w.board.cancelled = false) (hcall : (w.take s (.task task)).board.Cancels s i)
      (hlast : i + 1 = (w.take s (.task task)).board.calls.length) :
      Cut s b plan (w.take s (.task task))

theorem cut_of_take (hb : b.LastWord s True) (hw : (opening s b plan).Leads s w)
    (hlive : w.board.cancelled = false) {turn : Turn}
    (hcut : (w.take s turn).board.cancelled = true) : Cut s b plan (w.take s turn) := by
  cases turn with
  | cancellation => exact .outside hw hlive hcut
  | task task =>
    have hword := lastWord_of_leads (fun _ => trivial) (fun _ => trivial) (lastWord_opening hb plan) hw
    obtain ⟨i, hcall⟩ := cancels_of_take hword hlive hcut
    exact .call hw hlive hcall ((lastWord_take hword task).last i hcall).2

/-- A step either leaves the run uncancelled or is a turn that cuts it off. -/
theorem cut_of_step (hb : b.LastWord s True) (hw : (opening s b plan).Leads s w)
    (hlive : w.board.cancelled = false) (hstep : w.step? s = some v)
    (hcut : v.board.cancelled = true) : Cut s b plan v := by
  cases stepped hstep with
  | @took turn ready burst _ => exact cut_of_take hb (hw.tail (.row w ready burst)) hlive hcut
  | passed => exact absurd hcut (ne_true_of_eq_false hlive)

/-- A run that is cancelled in the end, and was not dropped, is what comes of the work at which it was
cut off. -/
theorem exists_cut (hpatient : J.Patient) (hb : b.LastWord s True)
    (hw : (opening s b plan).Leads s w) (hkept : J.Kept w) (h : w.OnAlert)
    (hlive : w.board.cancelled = false) (hend : (w.finish s).1.board.cancelled = true)
    (hout : (w.finish s).2 ≠ .dropped) :
    ∃ v, Cut s b plan v ∧ v.Ending J ∧ v.finish s = w.finish s := by
  -- follows the run as long as it is not cancelled
  fun_induction Work.finish s w with
  | case1 w | case6 w => exact absurd hend (ne_true_of_eq_false hlive)
  | case3 w | case5 w => exact absurd rfl hout
  | case2 w v hstep _ ih =>
    have hkept' := (hkept.step hstep).1
    have h' := h.step hkept hstep
    cases hcut : v.board.cancelled with
    | false => exact ih (hw.trans (leads_step? hstep)) hkept' h' hcut hend hout
    | true => exact ⟨v, cut_of_step hb hw hlive hstep hcut, ⟨hkept', h', hcut⟩, rfl⟩
  | case4 w hstep t _ _ _ ih =>
    have hlater := leads_advance s w t
    exact ih (hw.trans hlater) (hkept.leads hpatient hlater).1 (h.advance hstep hlive t) hlive hend
      hout

/-- A parallel that is begun leaves the board as it is. -/
theorem board_opening (s : Setting) (b : Board) (branches : List Plan) :
    (opening s b (.parallel branches)).board = b := by
  rw [opening, begin, afterRoot, board_after]
  by_cases hnone : Plan.allNames branches = []
  · unfold Run.start
    rw [if_pos (List.isEmpty_iff.2 hnone)]
    rfl
  · rw [Discipline.start_parallel _ hnone]
    unfold Run.collect
    show (if _ then _ else _ : Desk × Activity).1.board = b
    split <;> rfl

/-- The root of a parallel is at work or over in every schedule. -/
theorem gathers_of_leads (h : w.root.gathers = true) (hwv : w.Leads s v) :
    v.root.gathers = true := by
  induction hwv with
  | refl => exact h
  | @tail u v _ hmove ih =>
    cases hmove with
    | row | wait => exact ih
    | drop =>
      rw [drop, afterRoot, root_after]
      rfl
    | turn turn =>
      have htaken := u.taken s turn
      generalize u.take s turn = v at htaken ⊢
      cases htaken with
      | idle | cancellation => exact ih
      | root =>
        rw [afterRoot, root_after]
        exact Run.gathers_poll ih
      | branch =>
        rw [root_after, Activity.gathers_visit]
        exact ih

/-- Whenever it has a turn after a cancellation, the root of a parallel is over. -/
theorem isFinished_take_root (hgathers : w.root.gathers = true)
    (hcancelled : w.board.cancelled = true) : (w.take s .root).root.isFinished = true := by
  show (w.afterRoot (Run.poll s (w.desk 0) w.root)).root.isFinished = true
  rw [afterRoot, root_after]
  exact Run.isFinished_poll hgathers hcancelled

/-! ## The time of the cancellation -/

end Work

namespace Conduct

/-- Turns take no time. -/
def clock (s : Setting) (now : Nat) : Conduct s where
  Holds d _ := d.board.now = now
  fewer h _ := h
  write h hnow _ _ := hnow.trans h
  wake _ h := h
  spawn _ h := h
  giveUp h := h
  abandon _ h := h
  answer _ _ h := h
  send _ _ _ h := ⟨Run.now_sent.trans h, fun _ => Run.now_sent.trans h⟩

end Conduct

namespace Work

variable {s : Setting} {J : Discipline s} {w v : Work} {time : Nat}

theorem now_take (w : Work) (turn : Turn) : (w.take s turn).board.now = w.board.now := by
  cases turn with
  | cancellation =>
    rcases w.board_cancellation s with hboard | ⟨-, hboard⟩ <;> rw [hboard]
    rfl
  | task n =>
    exact (Conduct.clock s w.board.now).board_take (P := fun b => b.now = w.board.now) id
      fun _ => rfl

/-- The time of the cancellation from outside has not passed, and when it has come the cancellation
stands in the row. -/
def InTime (time : Nat) (w : Work) : Prop :=
  w.board.cancelled = false →
    w.board.now ≤ time ∧ (w.board.now = time → .cancellation ∈ w.ready)

/-- Nobody leaves the row in the turn of a task. -/
theorem mem_take {x : Turn} (h : x ∈ w.ready) (n : Nat) : x ∈ (w.take s (.task n)).ready := by
  have htaken := w.taken s (.task n)
  generalize w.take s (.task n) = v at htaken ⊢
  cases htaken <;> exact mem_after (.inl h)

/-- When it is time the cancellation has its turn, unless the run is cancelled already. -/
theorem weight_cancellation (hdue : s.cancelAt.any (· ≤ w.board.now) = true)
    (hlive : w.board.cancelled = false) : (w.take s .cancellation).board.cancelled = true ∧
      (w.take s .cancellation).weight < w.weight := by
  have htake : w.take s .cancellation =
      { w with board := w.board.cancel }.joinAll w.listeners :=
    if_pos (by rw [hlive, hdue]; rfl)
  obtain ⟨ready, hjoin⟩ := joinAll_eq { w with board := w.board.cancel } w.listeners
  rw [htake, hjoin]
  refine ⟨rfl, ?_⟩
  rw [weight_of_cancelled rfl, weight, hlive]
  exact Nat.lt_succ_self _

theorem InTime.step (hcancel : s.cancelAt = some time) (h : w.InTime time)
    (hstep : w.step? s = some v) : v.board.now = w.board.now ∧ v.InTime time := by
  have hdue : w.board.now = time → s.cancelAt.any (· ≤ w.board.now) = true := by
    rintro rfl
    simp [hcancel]
  cases stepped hstep with
  | @took turn ready burst hrow =>
    have hnow := now_take (s := s) { w with ready, burst } turn
    refine ⟨hnow, fun hlive => ?_⟩
    have hbefore : w.board.cancelled = false := by
      by_contra hcut
      rw [Bool.not_eq_false] at hcut
      have hafter := silent_take (s := s) (w := { w with ready, burst }) hcut turn
      exact absurd hafter.1 (ne_true_of_eq_false hlive)
    obtain ⟨hle, hin⟩ := h hbefore
    rw [hnow]
    refine ⟨hle, fun htime => ?_⟩
    cases turn with
    | cancellation =>
      -- at this time the turn would have cancelled the run
      have hcut := weight_cancellation (w := { w with ready, burst }) (hdue htime) hbefore
      exact absurd hcut.1 (ne_true_of_eq_false hlive)
    | task n =>
      have hready := (hrow _ (hin htime)).resolve_left (by simp)
      exact mem_take (w := { w with ready, burst }) hready n
  | @passed turn ready burst hrow hweight =>
    refine ⟨rfl, fun hlive => ?_⟩
    obtain ⟨hle, hin⟩ := h hlive
    refine ⟨hle, fun htime => (hrow _ (hin htime)).resolve_left ?_⟩
    rintro rfl
    -- at this time the turn would have achieved something
    have hcut := weight_cancellation (w := { w with ready, burst }) (hdue htime) hlive
    exact absurd hcut.2 (Nat.not_lt.2 hweight)

/-- When nobody is ready the time of the cancellation is one of the moments to come. -/
theorem InTime.mem_moments (hcancel : s.cancelAt = some time) (h : w.InTime time)
    (hlive : w.board.cancelled = false) (hstep : w.step? s = none) : time ∈ w.moments s := by
  obtain ⟨hle, hrow⟩ := h hlive
  have hready := ready_of_step? hstep
  refine List.mem_filter.2 ⟨List.mem_append_right _ (by simp [hcancel]), ?_⟩
  have hne : w.board.now ≠ time := fun htime => by
    have hmem := hrow htime
    rw [hready] at hmem
    exact List.not_mem_nil hmem
  simp only [decide_eq_true_eq]
  omega

/-- A run is over when the time of its cancellation has come, if it was not before. -/
theorem finish_inTime (hpatient : J.Patient) (hcancel : s.cancelAt = some time) (hkept : J.Kept w)
    (h : w.OnAlert) (hin : w.InTime time) (hle : w.board.now ≤ time)
    (hout : (w.finish s).2 ≠ .dropped) :
    (∃ rs, (w.finish s).2 = .finished (.results rs)) ∧ (w.finish s).1.board.now ≤ time := by
  fun_induction Work.finish s w with
  | case1 w yield hroot => exact ⟨results_of_kept hkept hroot, hle⟩
  | case2 w v hstep _ ih =>
    obtain ⟨hnow, hin'⟩ := hin.step hcancel hstep
    exact ih (hkept.step hstep).1 (h.step hkept hstep) hin' (hnow ▸ hle) hout
  | case3 w | case5 w => exact absurd rfl hout
  | case4 w hstep t hmin _ hworking ih =>
    have hlive := h.live_of_working hstep hworking
    have hmoment := hin.mem_moments hcancel hlive hstep
    obtain ⟨hmem, hleast⟩ := List.min?_eq_some_iff.1 hmin
    -- time moves to the next moment, which is that of the cancellation at the latest
    have hlate : w.board.now < t := by simpa [moments] using (List.mem_filter.1 hmem).2
    have hnow : (w.advance s t).board.now = t := Nat.max_eq_right (Nat.le_of_lt hlate)
    refine ih (hkept.leads hpatient (leads_advance s w t)).1 (h.advance hstep hlive t) ?_ ?_ hout
    · intro _
      rw [hnow]
      refine ⟨hleast time hmoment, ?_⟩
      rintro rfl
      exact List.mem_append_left _ (by simp [hcancel])
    · rw [hnow]
      exact hleast time hmoment
  | case6 w hstep hnone _ hworking =>
    have hlive := h.live_of_working hstep hworking
    have hmoment := hin.mem_moments hcancel hlive hstep
    rw [List.min?_eq_none_iff.1 hnone] at hmoment
    exact absurd hmoment List.not_mem_nil

end Work

end Gateway
