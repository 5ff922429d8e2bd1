import Gateway.Proofs.Run.Publishing
import Gateway.Run.Turn

/-!
# Gateway.Proofs.Run.Growth — what a board keeps

A run only ever adds to its board. `Board.Extends b c` says what of `b` can still be read off `c`:
what a name holds, the result that settled a cell, the logs. Facts that are stated through these
survive everything that other tasks do, which is why the proofs about single tasks compose.

Of a logged call the state may change as long as it runs, and nothing else of it. The *first* sight
of a producer is the one that its request is made from.

A task never sees what others do between two of its turns, and what it remembers from before may have
been overtaken. To say what is kept in spite of this there are two ways: to name what the others may do,
or to name what is not changed by anyone. The second is the shorter list by far. What is not in it must
not be remembered: that a cell is free or taken, who stands in its line, or what time it is.
-/

set_option autoImplicit false

namespace Gateway

namespace Board

/-- The calls of a producer in the log. -/
def callsOf (b : Board) (p : Producer) : List Call := b.calls.filter (·.producer.id = p.id)

/-- The board before anything of a plan is done, when the run may be cancelled already. -/
def fresh (plan : Plan) (cancelled : Bool) : Board := { ofPlan plan with cancelled }

/-- What a producer saw, each time that its attributes were evaluated. -/
def sightsOf (b : Board) (p : Producer) : List ResultMap :=
  (b.sights.filter (·.producer.id = p.id)).map (·.results)

/-- `c` is `b` after more has been done. -/
structure Extends (b c : Board) : Prop where
  now : b.now ≤ c.now
  cancelled : b.cancelled = true → c.cancelled = true
  names : c.results.names = b.results.names
  published : ∀ {name : String} {r : ProducerResult}, b.results.get? name = some r →
    c.results.get? name = some r
  settled : ∀ {id : Nat} {r : ProducerResult}, b.cells id = some (.settled r) →
    c.cells id = some (.settled r)
  calls : ∀ {i : Nat} {call : Call}, b.calls[i]? = some call →
    ∃ state, c.calls[i]? = some { call with state } ∧ (call.state ≠ .running → state = call.state)
  sights : b.sights <+: c.sights
  receipts : b.receipts <+: c.receipts

namespace Extends

theorem refl (b : Board) : b.Extends b :=
  ⟨Nat.le_refl _, id, rfl, id, id, fun h => ⟨_, h, fun _ => rfl⟩, List.prefix_refl _,
    List.prefix_refl _⟩

theorem trans {b c d : Board} (h : b.Extends c) (h' : c.Extends d) : b.Extends d where
  now := Nat.le_trans h.now h'.now
  cancelled hb := h'.cancelled (h.cancelled hb)
  names := h'.names.trans h.names
  published hb := h'.published (h.published hb)
  settled hb := h'.settled (h.settled hb)
  calls hb := by
    obtain ⟨state, hc, hstate⟩ := h.calls hb
    obtain ⟨state', hd, hstate'⟩ := h'.calls hc
    refine ⟨state', hd, fun hrun => ?_⟩
    have heq := hstate hrun
    rw [hstate' (by rw [heq]; exact hrun), heq]
  sights := h.sights.trans h'.sights
  receipts := h.receipts.trans h'.receipts

theorem live {b c : Board} (h : b.Extends c) (hc : c.cancelled = false) : b.cancelled = false := by
  cases hb : b.cancelled with
  | false => rfl
  | true => rw [h.cancelled hb] at hc; cases hc

end Extends

/-! ## What single operations leave as it is -/

@[simp] theorem setCell_setCell (b : Board) (id : Nat) (cell cell' : Cell) :
    (b.setCell id cell).setCell id cell' = b.setCell id cell' := by
  simp only [setCell, Board.mk.injEq, true_and, and_true]
  funext i
  split <;> rfl

@[simp] theorem cells_setCell_self (b : Board) (id : Nat) (cell : Cell) :
    (b.setCell id cell).cells id = some cell := if_pos rfl

theorem cells_setCell_of_ne {b : Board} {id i : Nat} {cell : Cell} (h : i ≠ id) :
    (b.setCell id cell).cells i = b.cells i := if_neg h

/-- A cell may change as long as it is not settled. -/
theorem extends_setCell {b : Board} {id : Nat} {cell : Cell}
    (h : ∀ r, b.cells id = some (.settled r) → cell = .settled r) : b.Extends (b.setCell id cell) where
  __ := Extends.refl b
  settled {i r} hi := by
    by_cases heq : i = id
    · subst heq
      rw [cells_setCell_self, h r hi]
    · rw [cells_setCell_of_ne heq]
      exact hi

theorem extends_publish (b : Board) (rs : List ProducerResult) : b.Extends (b.publish rs) where
  __ := Extends.refl b
  names := ResultMap.names_publishAll b.results rs
  published h := ResultMap.get?_publishAll_of_some h

theorem extends_look (b : Board) (p : Producer) : b.Extends (b.look p) where
  __ := Extends.refl b
  sights := List.prefix_append _ _

theorem extends_hand (b : Board) (p : Producer) (r : ProducerResult) : b.Extends (b.hand p r) where
  __ := Extends.refl b
  receipts := List.prefix_append _ _

theorem extends_cancel (b : Board) : b.Extends b.cancel where
  __ := Extends.refl b
  cancelled _ := rfl

theorem extends_enter (b : Board) (p : Producer) (request : BackendRequest) :
    b.Extends (b.enter p request) where
  __ := Extends.refl b
  calls {_ call} h :=
    ⟨call.state, (List.getElem?_append_left (List.getElem?_eq_some_iff.1 h).1).trans h,
      fun _ => rfl⟩

/-- The board at a later time. -/
def wait (b : Board) (time : Nat) : Board := { b with now := max b.now time }

theorem extends_wait (b : Board) (time : Nat) : b.Extends (b.wait time) where
  __ := Extends.refl b
  now := Nat.le_max_left _ _

theorem calls_mark_self {b : Board} {i : Nat} {state : CallState} {call : Call}
    (h : b.calls[i]? = some call) : (b.mark i state).calls[i]? = some { call with state } := by
  rw [mark, List.getElem?_modify_eq, h]
  rfl

theorem calls_mark_of_ne {b : Board} {i j : Nat} {state : CallState} (h : i ≠ j) :
    (b.mark i state).calls[j]? = b.calls[j]? := by
  exact List.getElem?_modify_ne _ b.calls h

theorem extends_mark {b : Board} {i : Nat} {state : CallState} {call : Call}
    (hcall : b.calls[i]? = some call) (hrun : call.state = .running) :
    b.Extends (b.mark i state) where
  __ := Extends.refl b
  calls {j other} h := by
    by_cases hij : i = j
    · subst hij
      rw [hcall, Option.some.injEq] at h
      subst h
      exact ⟨state, calls_mark_self hcall, fun hne => absurd hrun hne⟩
    · exact ⟨other.state, (calls_mark_of_ne hij).trans h, fun _ => rfl⟩

end Board

end Gateway
