import Gateway.Proofs.Run.Growth
import Mathlib.Data.Multiset.AddSub

/-!
# Gateway.Proofs.Run.Deed — all that a turn can do to a board

Everything that tasks do to the board they share is one of ten deeds. A deed tells what was there
before, what is there after, and the calls under way on both sides. Whoever is at a call holds it:
the calls under way are a multiset that is divided among the tasks, and a deed touches the call of
one task and leaves all others alone.

A `Discipline` says what is kept: of the board and the calls under way (`Inv`), of a plan that may
be begun (`Pre`), and of results (`Right`). Its laws are about deeds and about the shape of plans;
that whole turns keep it is proved once, for all disciplines.

A turn is far too long to be looked at again for each thing that is to be kept. It may begin whole
branches of a plan, and ends wherever it has to wait; the functions that make it up call each other in
three mutual recursions. None of them is opened after `Upkeep` and `Turns`. An invariant has to be kept
by ten deeds, each of which is an equation for the next board, and a change to the way turns are made
has to be answered there and nowhere else.

The guards of the deeds are as strong as the program's. A request is sent only if the cell is free, the
run is not cancelled and the request can be made from the results on the board at that moment. A weaker
guard would make turns easier to follow, and would make deeds of things that never happen.
-/

set_option autoImplicit false

namespace Gateway

namespace Cell

/-- Whether a call may be made: nobody is at it, and there is no result. -/
def isFree : Cell → Bool
  | .vacant | .offered .. => true
  | _ => false

/-- Whether somebody is at the call. -/
def isTaken : Cell → Bool
  | .taken _ => true
  | _ => false

/-- The cells that differ in who waits, and at most in whom a free cell is offered to. -/
def Requeued (cell cell' : Cell) : Prop :=
  cell' = cell ∨ cell.isTaken = true ∧ cell'.isTaken = true ∨
    (∃ task line, cell = .offered task line) ∧ cell'.isFree = true

theorem isFree_release (line : List Nat) : (release line).isFree = true := by
  cases line <;> rfl

theorem requeued_join (task : Nat) (cell : Cell) : cell.Requeued (cell.join task) := by
  cases cell with
  | vacant => exact .inl rfl
  | taken line => exact .inr (.inl ⟨rfl, rfl⟩)
  | offered first line => exact .inr (.inr ⟨⟨first, line, rfl⟩, rfl⟩)
  | settled r => exact .inl rfl

theorem requeued_leave (task : Nat) (cell : Cell) : cell.Requeued (cell.leave task) := by
  cases cell with
  | vacant => exact .inl rfl
  | taken line => exact .inr (.inl ⟨rfl, rfl⟩)
  | offered first line =>
    refine .inr (.inr ⟨⟨first, line, rfl⟩, ?_⟩)
    show (if first = task then release line else .offered first (line.erase task)).isFree = true
    split
    · exact isFree_release line
    · rfl
  | settled r => exact .inl rfl

end Cell

/-- Whether anything may cancel a run. -/
def Setting.MayCancel (s : Setting) : Prop :=
  s.cancelAt.isSome ∨ s.dropAt.isSome ∨ ∃ p n request, (s.backends p n request).cancels = true

/-- The call that a task has under way once it has sent the request of a producer. -/
def Board.underway (s : Setting) (b : Board) (task since : Nat) (p : Producer)
    (expected : List Nat) (request : BackendRequest) : Ongoing :=
  let reply := s.backends p (b.callCount p) request
  { task, since, call := b.calls.length, producer := p, request, expected,
    due := reply.delay.map (b.now + ·), ending := reply.ending, cell := true }

/-- One deed, with the calls under way before and after. `asked` is what holds of a producer whose
result is asked for, and `right` what holds of results that are published. -/
inductive Deed (s : Setting) (asked : Board → Producer → Prop)
    (right : Board → ProducerResult → Prop) :
    Board → Multiset Ongoing → Board → Multiset Ongoing → Prop
  /-- Somebody joins or leaves a line. -/
  | requeue {b : Board} {calls : Multiset Ongoing} {id : Nat} {cell cell' : Cell}
      (hcell : b.cells id = some cell) (hline : cell.Requeued cell') :
      Deed s asked right b calls (b.setCell id cell') calls
  /-- No call is made after a cancellation. -/
  | refuse {b : Board} {calls : Multiset Ongoing} {p : Producer} {cell : Cell}
      (hcancelled : b.cancelled = true) (hasked : asked b p)
      (hcell : b.cells p.id = some cell) (hfree : cell.isFree = true) :
      Deed s asked right b calls
        ((b.setCell p.id (.settled (.failed p.name .cancelled))).hand p
          (.failed p.name .cancelled)) calls
  /-- The request cannot be made. -/
  | decline {b : Board} {calls : Multiset Ongoing} {p : Producer} {cell : Cell} {f : Failure}
      (hlive : b.cancelled = false) (hasked : asked b p)
      (hcell : b.cells p.id = some cell) (hfree : cell.isFree = true)
      (hprepare : p.prepare s.client b.results = .error f) :
      Deed s asked right b calls
        (((b.look p).setCell p.id (.settled (.failed p.name f))).hand p (.failed p.name f)) calls
  /-- A request is sent. -/
  | send {b : Board} {calls : Multiset Ongoing} {p : Producer} {cell : Cell} {line : List Nat}
      {expected : List Nat} {request : BackendRequest} (task since : Nat)
      (hlive : b.cancelled = false) (hasked : asked b p)
      (hcell : b.cells p.id = some cell) (hfree : cell.isFree = true)
      (hprepare : p.prepare s.client b.results = .ok (expected, request)) :
      Deed s asked right b calls (((b.look p).setCell p.id (.taken line)).enter p request)
        (b.underway s task since p expected request ::ₘ calls)
  /-- A call comes to its end. -/
  | complete {b : Board} {calls : Multiset Ongoing} {o : Ongoing}
      (hdue : o.due.any (· ≤ b.now) = true) :
      Deed s asked right b (o ::ₘ calls)
        ((((b.mark o.call .answered).look o.producer).setCell o.producer.id
          (.settled (Run.callResult s b o))).hand o.producer (Run.callResult s b o)) calls
  /-- A call is given up by its task, which goes on without it. -/
  | abandon {b : Board} {calls : Multiset Ongoing} {o : Ongoing} {r : ProducerResult}
      (hcancelled : b.cancelled = true)
      (hr : r = { ProducerResult.failed o.producer.name .cancelled with
        request := some o.request }) :
      Deed s asked right b (o ::ₘ calls)
        (((b.mark o.call .abandoned).setCell o.producer.id (.settled r)).hand o.producer r) calls
  /-- A call is given up together with its task. -/
  | release {b : Board} {calls : Multiset Ongoing} {o : Ongoing} {cell : Cell}
      (hcancelled : b.cancelled = true) (hfree : cell.isFree = true) :
      Deed s asked right b (o ::ₘ calls)
        ((b.mark o.call .abandoned).setCell o.producer.id cell) calls
  /-- Somebody is handed the result that settled a cell. -/
  | hand {b : Board} {calls : Multiset Ongoing} {p : Producer} {r : ProducerResult}
      (hasked : asked b p) (hcell : b.cells p.id = some (.settled r)) :
      Deed s asked right b calls (b.hand p r) calls
  | publish {b : Board} {calls : Multiset Ongoing} {rs : List ProducerResult}
      (hright : ∀ r ∈ rs, right b r) : Deed s asked right b calls (b.publish rs) calls
  | cancel {b : Board} {calls : Multiset Ongoing} (hmay : s.MayCancel) :
      Deed s asked right b calls b.cancel calls

/-- Only one kind of deed publishes anything. -/
theorem Deed.results {s : Setting} {asked : Board → Producer → Prop}
    {right : Board → ProducerResult → Prop} {b c : Board} {calls calls' : Multiset Ongoing}
    (h : Deed s asked right b calls c calls') :
    c.results = b.results ∨
      ∃ rs, c.results = b.results.publishAll rs ∧ ∀ r ∈ rs, right b r := by
  cases h with
  | publish hright => exact .inr ⟨_, rfl, hright⟩
  | _ => exact .inl rfl

/-- A sight that is new after a deed is that of a producer whose result was asked for when nobody was
at its call, or whose call was under way. -/
theorem Deed.of_mem_sights {s : Setting} {asked : Board → Producer → Prop}
    {right : Board → ProducerResult → Prop} {b c : Board} {calls calls' : Multiset Ongoing}
    (h : Deed s asked right b calls c calls') {sight : Sight} (hsight : sight ∈ c.sights) :
    sight ∈ b.sights ∨ sight.results = b.results ∧
      ((asked b sight.producer ∧
          ∃ cell, b.cells sight.producer.id = some cell ∧ cell.isFree = true) ∨
        ∃ o ∈ calls, o.producer = sight.producer) := by
  have hlook : ∀ {p : Producer}, sight ∈ b.sights ++ [⟨p, b.results⟩] →
      sight ∈ b.sights ∨ sight = ⟨p, b.results⟩ := fun hmem =>
    (List.mem_append.1 hmem).imp_right List.mem_singleton.1
  -- only three deeds look: those that make a request, or fail to, and the end of a call
  cases h with
  | decline hlive hasked hcell hfree hprepare =>
    rcases hlook hsight with hold | rfl
    · exact .inl hold
    · exact .inr ⟨rfl, .inl ⟨hasked, _, hcell, hfree⟩⟩
  | send task since hlive hasked hcell hfree hprepare =>
    rcases hlook hsight with hold | rfl
    · exact .inl hold
    · exact .inr ⟨rfl, .inl ⟨hasked, _, hcell, hfree⟩⟩
  | complete hdue =>
    rcases hlook hsight with hold | rfl
    · exact .inl hold
    · exact .inr ⟨rfl, .inr ⟨_, Multiset.mem_cons_self _ _, rfl⟩⟩
  | _ => exact .inl hsight

/-- What a run keeps. -/
structure Discipline (s : Setting) where
  /-- What holds of a board and the calls under way. -/
  Inv : Board → Multiset Ongoing → Prop
  /-- What holds of a plan when it may be begun. -/
  Pre : Board → Plan → Prop
  /-- What holds of a result. -/
  Right : Board → ProducerResult → Prop
  pre_mono : ∀ {b c : Board} {plan : Plan}, b.Extends c → Pre b plan → Pre c plan
  right_mono : ∀ {b c : Board} {r : ProducerResult}, b.Extends c → Right b r → Right c r
  deed : ∀ {b c : Board} {calls calls' : Multiset Ongoing},
    Deed s (fun b p => Pre b (.call p)) Right b calls c calls' →
    Inv b calls → Inv c calls' ∧ b.Extends c
  cell : ∀ {b : Board} {calls : Multiset Ongoing} {p : Producer},
    Inv b calls → Pre b (.call p) → (b.cells p.id).isSome
  ongoing : ∀ {b : Board} {calls : Multiset Ongoing} {o : Ongoing},
    Inv b calls → o ∈ calls → o.cell = true ∧ Pre b (.call o.producer)
  settled : ∀ {b : Board} {calls : Multiset Ongoing} {p : Producer} {r : ProducerResult},
    Inv b calls → Pre b (.call p) → b.cells p.id = some (.settled r) →
    r.name = p.name ∧ Right b r
  stub : ∀ {b : Board} {announced yielded : List String} {panic : Option (Option String)},
    ¬ Pre b (.stub announced yielded panic)
  step : ∀ {b : Board} {step : Plan} {rest : List Plan},
    Pre b (.sequence (step :: rest)) → Pre b step
  branch : ∀ {b : Board} {branches : List Plan} {branch : Plan},
    Pre b (.parallel branches) → branch ∈ branches → Pre b branch ∧ branch.names ≠ []
  cancelled : ∀ {b : Board} {r : ProducerResult},
    b.cancelled = true → r.isOk = false → Right b r
  /-- Whoever is skipped because of a failure has a right result. -/
  skip : ∀ {b : Board} {calls : Multiset Ongoing} {step : Plan} {rest : List Plan}
    {rs : List ProducerResult} {f : Failure} {name : String},
    Inv (b.publish rs) calls → Pre b (.sequence (step :: rest)) → rest ≠ [] →
    (rs.map (·.name)).Perm step.names → (∀ r ∈ rs, Right b r) → firstFailure? rs = some f →
    name ∈ Plan.lastNames rest → Right (b.publish rs) (.failed name (f.inSequence name))
  /-- After a step without a failure the next one may be begun. -/
  next : ∀ {b : Board} {calls : Multiset Ongoing} {step : Plan} {rest : List Plan}
    {rs : List ProducerResult},
    Inv (b.publish rs) calls → b.cancelled = false → Pre b (.sequence (step :: rest)) →
    rest ≠ [] → (rs.map (·.name)).Perm step.names → (∀ r ∈ rs, Right b r) →
    firstFailure? rs = none → Pre (b.publish rs) (.sequence rest)

end Gateway
