import Gateway.Run.Work

/-!
# Gateway.Run.Clock — running to the end

Time stands still while anyone is ready for a turn. When everyone waits it moves on to the next
moment at which something happens: a reply comes due, or the run is cancelled or dropped. Both
kinds of step come to an end: turns lower the weight of the work or shorten the row, and after a
move of the clock fewer moments are to come.
-/

set_option autoImplicit false

namespace Gateway

/-- How a run ends. It stalls when it waits for a reply that never comes. -/
inductive Outcome
  | finished (yield : Yield)
  | dropped
  | stalled
  deriving DecidableEq, Repr

namespace Work

/-- The times that the clock has before it: those at which calls come due, and that of the
cancellation. -/
def times (s : Setting) (w : Work) : List Nat :=
  w.ongoing.filterMap (·.due) ++ s.cancelAt.toList

/-- The moments to come. -/
def moments (s : Setting) (w : Work) : List Nat := (w.times s).filter (w.board.now < ·)

/-- Moving on to a moment leaves fewer moments to come. -/
theorem moments_advance_lt {s : Setting} {w : Work} {t : Nat} (h : t ∈ w.moments s) :
    ((w.advance s t).moments s).length < (w.moments s).length := by
  obtain ⟨hmem, hlt⟩ := List.mem_filter.1 h
  have hnow : w.board.now < t := by simpa using hlt
  have heq : (w.advance s t).moments s = (w.moments s).filter (t < ·) := by
    change (w.times s).filter (max w.board.now t < ·) = _
    rw [moments, List.filter_filter, Nat.max_eq_right (Nat.le_of_lt hnow)]
    exact List.filter_congr fun x _ => by simpa using fun hx => Nat.lt_trans hnow hx
  rw [heq]
  exact List.length_filter_lt_length_iff_exists.2 ⟨t, h, by simp⟩

/-- Takes turns until nobody is ready for one. -/
def settle (s : Setting) (w : Work) : Work :=
  match _h : w.step? s with
  | some v => settle s v
  | none => w
termination_by (w.weight, w.ready.length)
decreasing_by
  rcases step?_eq_some ‹_› with hlt | ⟨ready, burst, rfl, hlt⟩
  · exact Prod.Lex.left _ _ hlt
  · exact Prod.Lex.right _ hlt

/-- Whether the run is dropped before a moment. -/
def droppedBefore (s : Setting) (t : Option Nat) : Bool :=
  s.dropAt.any fun d => t.all (d ≤ ·)

/-- Takes turns and moves the time on until the root is finished. -/
def finish (s : Setting) (w : Work) : Work × Outcome :=
  match w.root with
  | .finished yield => (w, .finished yield)
  | _ =>
    match _h : w.step? s with
    | some v => finish s v
    | none =>
      match _h : (w.moments s).min? with
      | some t =>
        if droppedBefore s (some t) then (w.drop, .dropped) else finish s (w.advance s t)
      | none => if droppedBefore s none then (w.drop, .dropped) else (w, .stalled)
termination_by (w.weight, (w.moments s).length, w.ready.length)
decreasing_by
  · rcases step?_eq_some ‹_› with hlt | ⟨ready, burst, rfl, hlt⟩
    · exact Prod.Lex.left _ _ hlt
    · exact Prod.Lex.right _ (Prod.Lex.right _ hlt)
  · exact Prod.Lex.right _ (Prod.Lex.left _ _ (moments_advance_lt (List.min?_mem ‹_›)))

/-- Carries out a plan. Several plans may be carried out in turn. -/
def carryOut (s : Setting) (w : Work) (plan : Plan) : Work × Outcome := (w.begin s plan).finish s

end Work

/-- What a run leaves: its outcome, the board at its end, and the calls that were made, those by
tasks included that ended later. -/
structure Ended where
  outcome : Outcome
  board : Board
  calls : List Call

/-- Carries out a plan on a board. -/
def Plan.run (s : Setting) (b : Board) (plan : Plan) : Ended :=
  let (w, outcome) := (Work.ofBoard s b).carryOut s plan
  { outcome, board := w.board, calls := (w.settle s).board.calls }

end Gateway
