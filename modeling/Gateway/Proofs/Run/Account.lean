import Gateway.Proofs.Run.Deed
import Mathlib.Data.Multiset.Filter

/-!
# Gateway.Proofs.Run.Account — the life of a producer

A producer's *account* is all that a board tells of it: its cell, its calls in the log, what it saw,
and its calls under way. A `Stage` says which accounts there can be. Before a cancellation a
producer is idle, at its one call, or done, and being done it had its one call or none, since its
request could not be made. A cancellation may take it off at any time, and then it stays off.

A deed is about one producer, so that the accounts of all others stay as they are.

The four parts of an account are never in step by chance. That a cell is taken just as long as a call is
under way, that the log has one call when the cell is settled by a reply, that a look at the results goes
with each call and another with each reply: each of these could be an invariant of its own, and would
then need the others to be kept. As one inductive they are kept together, a deed leads from one of its
constructors to another, and whoever knows one part of the account finds the rest by cases on it.

The stage of a producer that was taken off says as little as possible. Its cell is free or holds a
failure, and its call, if there was one, was abandoned. Nothing more is needed after a cancellation.
-/

set_option autoImplicit false

namespace Gateway

/-- A response counts as a success only once it is edited. -/
theorem Producer.conclude_of_isOk {p : Producer} {client : ClientRequest} {results : ResultMap}
    {expected : List Nat} {sent : BackendRequest} {response : Response}
    (h : (p.conclude client results expected sent response).isOk = true) :
    ∃ edited, p.editResponse client results sent response = .ok edited ∧
      p.conclude client results expected sent response = .success p.name sent edited := by
  unfold conclude at h ⊢
  cases hedit : p.editResponse client results sent response with
  | error fault => rw [hedit] at h; cases h
  | ok edited =>
    rw [hedit] at h
    refine ⟨edited, rfl, ?_⟩
    show (if _ then _ else _) = _
    split
    · rfl
    · next hstatus =>
      simp only [hstatus] at h
      cases h

namespace Run

variable {client : ClientRequest} {results : ResultMap} {p : Producer} {expected : List Nat}
  {request : BackendRequest} {ending : Ending}

@[simp] theorem name_outcome :
    (outcome client results p expected request ending).name = p.name := by
  cases ending with
  | failure f | panic message => rfl
  | response response =>
    show (p.conclude client results expected request response).name = p.name
    unfold Producer.conclude
    split
    · rfl
    · split <;> rfl

/-- A call without a failure had a response. -/
theorem outcome_of_isOk (h : (outcome client results p expected request ending).isOk = true) :
    ∃ response edited, ending = .response response ∧
      p.editResponse client results request response = .ok edited ∧
      outcome client results p expected request ending = .success p.name request edited := by
  cases ending with
  | failure f | panic message => cases h
  | response response =>
    obtain ⟨edited, hedit, heq⟩ := Producer.conclude_of_isOk h
    exact ⟨response, edited, rfl, hedit, heq⟩

end Run

/-- What a board tells of one producer. -/
structure Account where
  cell : Option Cell
  calls : List Call
  sights : List ResultMap
  ongoing : Multiset Ongoing

/-- The account of a producer, given the calls that are under way. -/
def Board.account (b : Board) (calls : Multiset Ongoing) (p : Producer) : Account :=
  ⟨b.cells p.id, b.callsOf p, b.sightsOf p, calls.filter (·.producer.id = p.id)⟩

/-- What a request of a producer is answered with. A producer is called once, so that only the
answer to its first call counts. -/
def Setting.reply (s : Setting) (p : Producer) (request : BackendRequest) : Reply :=
  s.backends p 0 request

/-- A call under way is that of a producer which began to make it when it had seen some results. -/
structure Ongoing.Carries (s : Setting) (p : Producer) (v : ResultMap) (start : Nat) (o : Ongoing) :
    Prop where
  producer : o.producer = p
  cell : o.cell = true
  prepared : p.prepare s.client v = .ok (o.expected, o.request)
  due : o.due = (s.reply p o.request).delay.map (start + ·)
  ending : o.ending = (s.reply p o.request).ending

/-- How far a producer may be. `cancelled` tells whether the run is. -/
inductive Stage (s : Setting) (cancelled : Bool) (p : Producer) : Account → Prop
  | idle : Stage s cancelled p ⟨some .vacant, [], [], 0⟩
  | calling {line : List Nat} {v : ResultMap} {start : Nat} {o : Ongoing}
      (hcarries : o.Carries s p v start) :
      Stage s cancelled p ⟨some (.taken line), [⟨p, o.request, start, .running⟩], [v], {o}⟩
  | declined {v : ResultMap} {f : Failure} (hprepare : p.prepare s.client v = .error f) :
      Stage s cancelled p ⟨some (.settled (.failed p.name f)), [], [v], 0⟩
  | answered {v v' : ResultMap} {expected : List Nat} {request : BackendRequest} {start : Nat}
      (hprepare : p.prepare s.client v = .ok (expected, request)) :
      Stage s cancelled p
        ⟨some (.settled (Run.outcome s.client v' p expected request (s.reply p request).ending)),
          [⟨p, request, start, .answered⟩], [v, v'], 0⟩
  | off {cell : Cell} {calls : List Call} {sights : List ResultMap} (hcancelled : cancelled = true)
      (hcell : cell.isFree = true ∨
        ∃ r, cell = .settled r ∧ r.name = p.name ∧ r.isOk = false)
      (hcalls : calls = [] ∨ ∃ request start, calls = [⟨p, request, start, .abandoned⟩]) :
      Stage s cancelled p ⟨some cell, calls, sights, 0⟩

namespace Stage

variable {s : Setting} {cancelled : Bool} {p : Producer} {a : Account}

theorem cancel (h : Stage s cancelled p a) : Stage s true p a := by
  cases h with
  | idle => exact .idle
  | calling hcarries => exact .calling hcarries
  | declined hprepare => exact .declined hprepare
  | answered hprepare => exact .answered hprepare
  | off _ hcell hcalls => exact .off rfl hcell hcalls

theorem length_calls_le (h : Stage s cancelled p a) : a.calls.length ≤ 1 := by
  cases h with
  | off _ _ hcalls =>
    rcases hcalls with rfl | ⟨request, start, rfl⟩
    · exact Nat.zero_le 1
    · exact Nat.le_refl 1
  | _ => simp

/-- Whose cell is free has nothing under way, and before a cancellation has not begun. -/
theorem of_isFree {cell : Cell} (h : Stage s cancelled p a) (hcell : a.cell = some cell)
    (hfree : cell.isFree = true) :
    ∃ calls sights, a = ⟨some cell, calls, sights, 0⟩ ∧
      (cancelled = false → cell = .vacant ∧ calls = [] ∧ sights = []) ∧
      (calls = [] ∨ ∃ request start, calls = [⟨p, request, start, .abandoned⟩]) := by
  cases h with
  | idle =>
    cases hcell
    exact ⟨_, _, rfl, fun _ => ⟨rfl, rfl, rfl⟩, .inl rfl⟩
  | calling | declined | answered => cases hcell; cases hfree
  | off hcancelled _ hcalls =>
    cases hcell
    exact ⟨_, _, rfl, fun hlive => absurd hcancelled (ne_true_of_eq_false hlive), hcalls⟩

theorem of_mem_ongoing {o : Ongoing} (h : Stage s cancelled p a) (ho : o ∈ a.ongoing) :
    ∃ line v start, o.Carries s p v start ∧
      a = ⟨some (.taken line), [⟨p, o.request, start, .running⟩], [v], {o}⟩ := by
  cases h with
  | calling hcarries =>
    cases Multiset.mem_singleton.1 ho
    exact ⟨_, _, _, hcarries, rfl⟩
  | idle | declined | answered | off => exact absurd ho (Multiset.notMem_zero o)

/-- A producer whose cell is settled could not make its request, had its call answered, or was
taken off by a cancellation. -/
theorem of_settled {r : ProducerResult} (h : Stage s cancelled p a)
    (hcell : a.cell = some (.settled r)) :
    (∃ v f, p.prepare s.client v = .error f ∧ r = .failed p.name f ∧
      a.calls = [] ∧ a.sights = [v]) ∨
    (∃ v v' expected request start, p.prepare s.client v = .ok (expected, request) ∧
      r = Run.outcome s.client v' p expected request (s.reply p request).ending ∧
      a.calls = [⟨p, request, start, .answered⟩] ∧ a.sights = [v, v']) ∨
    cancelled = true ∧ r.name = p.name ∧ r.isOk = false := by
  cases h with
  | idle | calling => cases hcell
  | declined hprepare =>
    cases hcell
    exact .inl ⟨_, _, hprepare, rfl, rfl, rfl⟩
  | answered hprepare =>
    cases hcell
    exact .inr (.inl ⟨_, _, _, _, _, hprepare, rfl, rfl, rfl⟩)
  -- a cell that was let go of holds nothing, and one that was settled holds a failure
  | off hcancelled hoff _ =>
    cases hcell
    rcases hoff with hfree | ⟨r, heq, hname, hfailed⟩
    · cases hfree
    · cases heq
      exact .inr (.inr ⟨hcancelled, hname, hfailed⟩)

/-- A call that runs is under way. -/
theorem not_running (h : Stage s cancelled p a) (hnone : a.ongoing = 0) {call : Call}
    (hcall : call ∈ a.calls) : call.state ≠ .running := by
  cases h with
  | idle | declined => exact absurd hcall List.not_mem_nil
  | calling => exact absurd hnone (Multiset.singleton_ne_zero _)
  | answered => simp [List.mem_singleton.1 hcall]
  | off _ _ hcalls =>
    rcases hcalls with rfl | ⟨request, start, rfl⟩
    · exact absurd hcall List.not_mem_nil
    · simp [List.mem_singleton.1 hcall]

/-- Who waits in a line may change. -/
theorem requeue {cell cell' : Cell} (h : Stage s cancelled p a) (hcell : a.cell = some cell)
    (hline : cell.Requeued cell') : Stage s cancelled p { a with cell := some cell' } := by
  rcases hline with rfl | ⟨htaken, htaken'⟩ | ⟨⟨task, line, rfl⟩, hfree⟩
  · exact hcell ▸ h
  · cases h with
    | calling hcarries =>
      cases cell' with
      | taken line => exact .calling hcarries
      | _ => cases htaken'
    | idle | declined | answered => cases hcell; cases htaken
    | off _ hoff _ =>
      cases hcell
      rcases hoff with hfree | ⟨r, rfl, -⟩
      · cases cell <;> simp_all [Cell.isFree, Cell.isTaken]
      · cases htaken
  -- only a cancelled run sets a cell free without having settled it
  · cases h with
    | off hcancelled _ hcalls => exact .off hcancelled (.inl hfree) hcalls
    | idle | calling | declined | answered => cases hcell

end Stage

/-! ## What single operations leave of an account -/

namespace Board

variable {b : Board} {calls : Multiset Ongoing} {p q : Producer} {cell : Cell}

@[simp] theorem account_hand (r : ProducerResult) :
    (b.hand p r).account calls q = b.account calls q := rfl

theorem account_setCell_self :
    (b.setCell p.id cell).account calls p = { b.account calls p with cell := some cell } := by
  rw [account, cells_setCell_self]
  rfl

theorem account_setCell_of_ne {id : Nat} (h : q.id ≠ id) :
    (b.setCell id cell).account calls q = b.account calls q := by
  rw [account, cells_setCell_of_ne h]
  rfl

theorem account_look_self :
    (b.look p).account calls p =
      { b.account calls p with sights := (b.account calls p).sights ++ [b.results] } := by
  simp [account, look, sightsOf, callsOf, List.filter_append]

theorem account_look_of_ne (h : q.id ≠ p.id) :
    (b.look p).account calls q = b.account calls q := by
  simp [account, look, sightsOf, callsOf, List.filter_append, Ne.symm h]

theorem account_enter_self {request : BackendRequest} :
    (b.enter p request).account calls p = { b.account calls p with
      calls := (b.account calls p).calls ++ [⟨p, request, b.now, .running⟩] } := by
  simp [account, enter, sightsOf, callsOf, List.filter_append]

theorem account_enter_of_ne {request : BackendRequest} (h : q.id ≠ p.id) :
    (b.enter p request).account calls q = b.account calls q := by
  simp [account, enter, sightsOf, callsOf, List.filter_append, Ne.symm h]

theorem account_cons_self {o : Ongoing} (h : o.producer.id = p.id) :
    b.account (o ::ₘ calls) p =
      { b.account calls p with ongoing := o ::ₘ (b.account calls p).ongoing } := by
  rw [account, Multiset.filter_cons_of_pos calls h]
  rfl

theorem account_cons_of_ne {o : Ongoing} (h : o.producer.id ≠ p.id) :
    b.account (o ::ₘ calls) p = b.account calls p := by
  rw [account, Multiset.filter_cons_of_neg calls h]
  rfl

end Board

/-- Changing an item in place changes what a filter keeps of the list in the same way. -/
theorem filter_modify_of_neg {α : Type} {f : α → α} {P : α → Bool} {l : List α} {i : Nat} {x : α}
    (hi : l[i]? = some x) (hx : P x = false) (hfx : P (f x) = false) :
    (l.modify i f).filter P = l.filter P := by
  induction l generalizing i with
  | nil => cases hi
  | cons y l ih =>
    cases i with
    | zero =>
      cases hi
      rw [List.modify_zero_cons, List.filter_cons_of_neg (by simp [hfx]),
        List.filter_cons_of_neg (by simp [hx])]
    | succ i =>
      rw [List.modify_succ_cons, List.filter_cons, List.filter_cons, ih hi]

theorem filter_modify_of_singleton {α : Type} {f : α → α} {P : α → Bool} {l : List α} {i : Nat}
    {x y : α} (hi : l[i]? = some x) (hx : P x = true) (hfx : P (f x) = true)
    (hl : l.filter P = [y]) : x = y ∧ (l.modify i f).filter P = [f y] := by
  induction l generalizing i with
  | nil => cases hi
  | cons z l ih =>
    cases i with
    | zero =>
      cases hi
      rw [List.filter_cons_of_pos hx, List.cons.injEq] at hl
      obtain ⟨rfl, hrest⟩ := hl
      rw [List.modify_zero_cons, List.filter_cons_of_pos hfx, hrest]
      exact ⟨rfl, rfl⟩
    | succ i =>
      have hmem : x ∈ l.filter P := List.mem_filter.2 ⟨List.mem_of_getElem? hi, hx⟩
      cases hz : P z with
      | true =>
        rw [List.filter_cons_of_pos hz, List.cons.injEq] at hl
        rw [hl.2] at hmem
        cases hmem
      | false =>
        rw [List.filter_cons_of_neg (by simp [hz])] at hl
        rw [List.modify_succ_cons, List.filter_cons_of_neg (by simp [hz])]
        exact ih hi hl

namespace Board

variable {b : Board} {calls : Multiset Ongoing} {q : Producer}

theorem account_mark_of_ne {i : Nat} {state : CallState} {call : Call}
    (hi : b.calls[i]? = some call) (h : call.producer.id ≠ q.id) :
    (b.mark i state).account calls q = b.account calls q := by
  have hcalls : (b.mark i state).callsOf q = b.callsOf q :=
    filter_modify_of_neg hi (decide_eq_false h) (decide_eq_false h)
  rw [account, hcalls]
  rfl

theorem account_mark_self (calls : Multiset Ongoing) {i : Nat} (state : CallState)
    {call only : Call} (hi : b.calls[i]? = some call) (h : call.producer.id = q.id) (honly : b.callsOf q = [only]) :
    call = only ∧ (b.mark i state).account calls q =
      { b.account calls q with calls := [{ only with state }] } := by
  obtain ⟨heq, hcalls⟩ := filter_modify_of_singleton (f := fun c : Call => { c with state }) hi
    (decide_eq_true h) (decide_eq_true h) honly
  refine ⟨heq, ?_⟩
  rw [account, show (b.mark i state).callsOf q = _ from hcalls]
  rfl

end Board

end Gateway
