import Gateway.Producer.Outbound

/-!
# Gateway.Proofs.Evaluation.Failing — why a request cannot be made

Whatever goes wrong before a producer's call is found in its attributes or in the request that they
make. A failure of that sort never stems from another producer.

A request is made in a dozen steps, each of which may fail, and what is said of the failures is the same
for all of them. `FailsOnly sort` says it of a computation and is closed under what computations are put
together with, so that a proof goes along the steps and says at each of them why its own failures are of
the sort. What came before matters only where the sort is about it; for that `bind_of_eq` keeps the
equation that the first half came to a value.

It is not said that anything fails, and a computation that always succeeds satisfies every `FailsOnly`.
The other direction is proved where it is needed, with `exists_of_bind`: a chain that comes to a value
has come to one at every step.
-/

set_option autoImplicit false

namespace Gateway

/-- The failures of a computation are all of one sort. -/
def FailsOnly {ε α : Type} (sort : ε → Prop) (x : Except ε α) : Prop := ∀ f, x = .error f → sort f

namespace FailsOnly

variable {ε α β : Type} {sort : ε → Prop}

theorem pure (a : α) : FailsOnly sort (Pure.pure a : Except ε α) := by
  intro f h
  cases h

theorem error {e : ε} (he : sort e) : FailsOnly sort (.error e : Except ε α) := by
  intro f h
  cases h
  exact he

theorem bind_of_eq {x : Except ε α} {k : α → Except ε β} (hx : FailsOnly sort x)
    (hk : ∀ a, x = .ok a → FailsOnly sort (k a)) : FailsOnly sort (x >>= k) := by
  intro f h
  cases x with
  | ok a => exact hk a rfl f h
  | error e =>
    cases h
    exact hx _ rfl

theorem bind {x : Except ε α} {k : α → Except ε β} (hx : FailsOnly sort x)
    (hk : ∀ a, FailsOnly sort (k a)) : FailsOnly sort (x >>= k) :=
  hx.bind_of_eq fun a _ => hk a

theorem mapError_of_eq {ε' : Type} {x : Except ε' α} {into : ε' → ε}
    (h : ∀ e, x = .error e → sort (into e)) : FailsOnly sort (x.mapError into) := by
  intro f hf
  cases x with
  | ok a => cases hf
  | error e =>
    cases hf
    exact h e rfl

theorem mapError {ε' : Type} {x : Except ε' α} {into : ε' → ε} (h : ∀ e, sort (into e)) :
    FailsOnly sort (x.mapError into) :=
  mapError_of_eq fun e _ => h e

end FailsOnly

/-- A computation that comes to a value has come to one in its first half. -/
theorem exists_of_bind {ε α β : Type} {x : Except ε α} {k : α → Except ε β} {b : β}
    (h : x >>= k = .ok b) : ∃ a, x = .ok a ∧ k a = .ok b := by
  cases x with
  | ok a => exact ⟨a, rfl, h⟩
  | error e => cases h

theorem mapError_eq_ok {ε ε' α : Type} {x : Except ε α} {into : ε → ε'} {a : α} :
    x.mapError into = .ok a ↔ x = .ok a := by
  cases x with
  | ok b => exact ⟨fun h => by cases h; rfl, fun h => by cases h; rfl⟩
  | error e => exact ⟨nofun, nofun⟩

/-- The failure is about the attributes of a producer, or about its request. -/
def Failure.IsLocal (f : Failure) : Prop := f.kind = "evaluation" ∨ f.kind = "request"

theorem failsOnly_orFail {α : Type} (x : Except Fault α) :
    FailsOnly Failure.IsLocal (orFail x) :=
  .mapError fun _ => .inl rfl

namespace Attributes

variable (a : Attributes) (c : Context)

theorem failsOnly_evalMethod : FailsOnly Failure.IsLocal (a.evalMethod c) := by
  unfold evalMethod
  apply (failsOnly_orFail _).bind
  intro value
  cases value with
  | none => exact .pure _
  | some value =>
    dsimp only
    split
    · exact .pure _
    · split
      · exact .pure _
      · exact .error (.inr rfl)

theorem failsOnly_evalUrl : FailsOnly Failure.IsLocal (a.evalUrl c) :=
  (failsOnly_orFail _).bind fun _ => .pure _

theorem failsOnly_evalPath : FailsOnly Failure.IsLocal (a.evalPath c) := by
  unfold evalPath
  apply (failsOnly_orFail _).bind
  intro value
  cases value with
  | none => exact .pure _
  | some value => exact failsOnly_orFail _

theorem failsOnly_evalBody : FailsOnly Failure.IsLocal (a.evalBody c) := by
  unfold evalBody
  apply (failsOnly_orFail _).bind
  rintro (_ | value)
  · apply (failsOnly_orFail _).bind
    rintro (_ | value)
    · apply (failsOnly_orFail _).bind
      rintro (_ | value)
      · exact .pure _
      · exact .pure _
    · exact (failsOnly_orFail _).bind fun _ => .pure _
  · exact .pure _

theorem failsOnly_evalExpected : FailsOnly Failure.IsLocal (a.evalExpected c) := by
  unfold evalExpected
  apply (failsOnly_orFail _).bind
  intro value
  cases value with
  | none => exact .pure _
  | some value => exact failsOnly_orFail _

theorem failsOnly_editRequest (r : BackendRequest) :
    FailsOnly Failure.IsLocal (a.editRequest c r) := by
  unfold editRequest
  apply (failsOnly_orFail _).bind
  intro set
  apply (failsOnly_orFail _).bind
  intro headers
  apply (failsOnly_orFail _).bind
  intro edit
  apply (failsOnly_orFail _).bind
  intro headers
  apply (failsOnly_orFail _).bind
  intro edit
  apply (failsOnly_orFail _).bind
  intro url
  apply (failsOnly_orFail _).bind
  intro edit
  dsimp only
  split
  · exact .pure _
  · exact (failsOnly_orFail _).bind fun _ => .pure _

end Attributes

namespace Producer

theorem failsOnly_ownRequest (a : Attributes) (c : Context) :
    FailsOnly Failure.IsLocal (ownRequest a c) := by
  apply (a.failsOnly_evalBody c).bind
  intro body
  apply (a.failsOnly_evalMethod c).bind
  intro method
  exact (a.failsOnly_evalUrl c).bind fun _ => .pure _

theorem failsOnly_forwarded (a : Attributes) (client : ClientRequest) (c : Context) :
    FailsOnly Failure.IsLocal (forwarded a client c) := by
  apply (a.failsOnly_evalMethod c).bind
  intro method
  apply (a.failsOnly_evalUrl c).bind
  intro url
  apply (a.failsOnly_evalPath c).bind
  intro path
  exact (a.failsOnly_evalBody c).bind fun _ => .pure _

theorem failsOnly_prepare (p : Producer) (client : ClientRequest) (results : ResultMap) :
    FailsOnly Failure.IsLocal (p.prepare client results) := by
  apply (p.attributes.failsOnly_evalExpected _).bind
  intro expected
  refine FailsOnly.bind ?_ fun _ => .pure _
  unfold outbound
  cases p.kind with
  | request => exact (failsOnly_ownRequest _ _).bind (p.attributes.failsOnly_editRequest _)
  | proxy => exact (failsOnly_forwarded _ _ _).bind (p.attributes.failsOnly_editRequest _)

end Producer

end Gateway
