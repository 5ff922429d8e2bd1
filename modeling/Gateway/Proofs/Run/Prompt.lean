import Gateway.Proofs.Run.Schedule

/-!
# Gateway.Proofs.Run.Prompt — runs in which nobody is kept waiting

Which of the tasks in the row has the next turn is a choice that a run makes one way, and might make
another way: the row could be a stack, or the root could always go first. What is said of a schedule
in `Moves` holds however that is chosen, but it is said of too many schedules to speak of times: there
a task may be passed over for ever, and the clock may move on while somebody has something to do. Calls
are late then, for no fault of the graph.

A run is *prompt* if it takes care of just these two things. Somebody who stands in the row has the next
turn, whoever it is; and the clock only moves when the row is empty, to the next moment at which
something happens. This is enough for the times: it is all that the proofs of `Schedule` use of the
row. Nor has the choice any part in coming to an end. Every turn leaves less to be done or a shorter
row, and every move of the clock fewer moments to come, whoever was chosen.
-/

set_option autoImplicit false

namespace Gateway

namespace Work

/-- What may come next in a prompt run. Anyone in the row has a turn and leaves the row, all others stay
in it; a turn that achieves nothing leaves no trace. When the row is empty and the plan is not
finished, the time moves on to the next moment. -/
inductive Prompt (s : Setting) (w : Work) : Work → Prop
  | turn {turn : Turn} {ready : List Turn} {burst : Nat} (hmem : turn ∈ w.ready)
      (hrow : ∀ x ∈ w.ready, x = turn ∨ x ∈ ready) (hshort : ready.length < w.ready.length)
      (hweight : (take s { w with ready, burst } turn).weight < w.weight) :
      Prompt s w (take s { w with ready, burst } turn)
  | idle {turn : Turn} {ready : List Turn} {burst : Nat} (hmem : turn ∈ w.ready)
      (hrow : ∀ x ∈ w.ready, x = turn ∨ x ∈ ready) (hshort : ready.length < w.ready.length)
      (hweight : w.weight ≤ (take s { w with ready, burst } turn).weight) :
      Prompt s w { w with ready, burst }
  | advance {time : Nat} (hready : w.ready = []) (hroot : w.root.isFinished = false)
      (htime : (w.moments s).min? = some time) : Prompt s w (w.advance s time)

/-- What prompt runs lead to. -/
def Prompts (s : Setting) : Work → Work → Prop := Relation.ReflTransGen (Prompt s)

variable {s : Setting} {w v : Work} {turn : Turn}

/-! ## The run of a plan is prompt -/

theorem turn_mem_of_next? (h : w.next? = some (turn, v)) : turn ∈ w.ready := by
  unfold next? at h
  split at h
  · next hothers =>
    split at h
    · cases h
    · next hready =>
      cases h
      -- whoever is in the row then is the root
      obtain ⟨x, rest, heq⟩ := List.exists_cons_of_ne_nil fun hnil => hready (List.isEmpty_iff.2 hnil)
      have hx : x ∈ w.ready := heq ▸ List.mem_cons_self
      have hroot : x = .root := by
        by_contra hne
        have hmem : x ∈ w.ready.filter (· ≠ .root) := List.mem_filter.2 ⟨hx, decide_eq_true hne⟩
        rw [hothers] at hmem
        cases hmem
      exact hroot ▸ hx
  · next turn' others hothers =>
    split at h
    · next hroot =>
      cases h
      exact List.contains_iff_mem.1 (Bool.and_eq_true_iff.1 hroot).2
    · cases h
      have hmem : turn ∈ w.ready.filter (· ≠ .root) := hothers ▸ List.mem_cons_self
      exact (List.mem_filter.1 hmem).1

theorem prompt_of_step? (h : w.step? s = some v) : w.Prompt s v := by
  obtain ⟨⟨turn, u⟩, hnext, hstep⟩ := Option.map_eq_some_iff.1 h
  have hmem := turn_mem_of_next? hnext
  have hrow : ∀ x ∈ w.ready, x = turn ∨ x ∈ u.ready := fun _ => mem_of_next? hnext
  obtain ⟨ready, burst, rfl, hshort⟩ := next?_eq_some hnext
  simp only at hstep
  split at hstep
  · next hweight => exact hstep ▸ .turn hmem hrow hshort hweight
  · next hweight => exact hstep ▸ .idle hmem hrow hshort (Nat.not_lt.1 hweight)

theorem prompts_finish (hlive : (w.finish s).1.board.cancelled = false) :
    w.Prompts s (w.finish s).1 := by
  fun_induction finish s w with
  | case1 w yield hroot => exact .refl
  | case2 w v hstep _ ih => exact .head (prompt_of_step? hstep) (ih hlive)
  | case3 w => exact absurd w.cancelled_drop (ne_true_of_eq_false hlive)
  | case4 w hstep time htime _ hroot ih =>
    exact .head (.advance (ready_of_step? hstep) (Activity.isFinished_eq_false hroot) htime) (ih hlive)
  | case5 w => exact absurd w.cancelled_drop (ne_true_of_eq_false hlive)
  | case6 w => exact .refl

/-! ## Prompt runs come to an end -/

/-- However the next one is chosen, no prompt run goes on for ever. -/
theorem wellFounded_prompt (s : Setting) : WellFounded fun v w : Work => w.Prompt s v := by
  let left (w : Work) : Nat × Nat × Nat := (w.weight, (w.moments s).length, w.ready.length)
  refine Subrelation.wf (r := InvImage (Prod.Lex (· < ·) (Prod.Lex (· < ·) (· < ·))) left) ?_
    (InvImage.wf left (WellFounded.prod_lex Nat.lt_wfRel.wf
      (WellFounded.prod_lex Nat.lt_wfRel.wf Nat.lt_wfRel.wf)))
  intro v w h
  cases h with
  | turn _ _ _ hweight => exact Prod.Lex.left _ _ hweight
  | idle _ _ hshort _ => exact Prod.Lex.right _ (Prod.Lex.right _ hshort)
  | advance _ _ htime =>
    exact Prod.Lex.right _ (Prod.Lex.left _ _ (moments_advance_lt (List.min?_mem htime)))

end Work

namespace Ensemble.Course

variable {E : Ensemble} {s : Setting} {names : List String} {w v : Work}

theorem prompt (hs : s.Answering) (hcovered : E.Covered names) (h : E.Course s names w)
    (hwv : w.Prompt s v) : E.Course s names v := by
  cases hwv with
  | turn _ hrow => exact h.stepped hs (.took hrow)
  | idle _ hrow _ hweight => exact h.stepped hs (.passed hrow hweight)
  | advance hready hroot htime => exact h.advance hs hcovered hready hroot htime

theorem prompts (hs : s.Answering) (hcovered : E.Covered names) (h : E.Course s names w)
    (hwv : w.Prompts s v) : E.Course s names v := by
  induction hwv with
  | refl => exact h
  | tail _ hstep ih => exact ih.prompt hs hcovered hstep

/-- Before its plan is finished a prompt run goes on. -/
theorem exists_prompt (hs : s.Answering) (h : E.Course s names w)
    (hlive : w.board.cancelled = false) (hroot : w.root.isFinished = false) : ∃ v, w.Prompt s v := by
  cases hready : w.ready with
  | nil =>
    obtain ⟨-, ⟨moment, hmoment⟩, -⟩ := h.waits hs hlive hready hroot
    cases htime : (w.moments s).min? with
    | none =>
      rw [List.min?_eq_none_iff.1 htime] at hmoment
      exact absurd hmoment List.not_mem_nil
    | some time => exact ⟨_, .advance hready hroot htime⟩
  | cons turn rest =>
    have hmem : turn ∈ w.ready := hready ▸ List.mem_cons_self
    have hrow : ∀ x ∈ w.ready, x = turn ∨ x ∈ rest := fun x hx => List.mem_cons.1 (hready ▸ hx)
    have hshort : rest.length < w.ready.length := hready ▸ Nat.lt_succ_self _
    -- the first in the row has its turn, and either achieves something or has nothing to do
    rcases Nat.lt_or_ge (Work.take s { w with ready := rest } turn).weight w.weight with hlt | hge
    · exact ⟨_, .turn hmem hrow hshort hlt⟩
    · exact ⟨_, .idle hmem hrow hshort hge⟩

end Ensemble.Course

end Gateway
