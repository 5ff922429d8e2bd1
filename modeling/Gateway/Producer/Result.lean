import Gateway.Http.Message
import Gateway.Producer.Failure

/-!
# Gateway.Producer.Result — results and where they are published

A result holds what is known of one producer's call. Results are published under the name of
their producer in a `ResultMap`, whose names are fixed and each of which is written once:
`get?_publish` says that the first result of a name stays.
-/

set_option autoImplicit false

namespace Gateway

/-- The outcome of one producer for one request. -/
structure ProducerResult where
  name : String
  request : Option BackendRequest := none
  response : Option Response := none
  failure : Option Failure := none
  deriving DecidableEq, Repr

namespace ProducerResult

/-- The result of a call that was answered. -/
def success (name : String) (request : BackendRequest) (response : Response) : ProducerResult :=
  ⟨name, some request, some response, none⟩

/-- The result of a producer that has no answer. -/
def failed (name : String) (failure : Failure) : ProducerResult :=
  ⟨name, none, none, some failure⟩

/-- Whether the producer has not failed. -/
def isOk (r : ProducerResult) : Bool := r.failure.isNone

end ProducerResult

/-- The first failure among results. -/
def firstFailure? (results : List ProducerResult) : Option Failure :=
  results.findSome? (·.failure)

/-- The published results: the names that may be published, and the results by now. -/
structure ResultMap where
  names : List String
  published : List ProducerResult := []
  deriving Repr

namespace ResultMap

/-- A map for these names, with nothing published. -/
def ofNames (names : List String) : ResultMap := ⟨names.eraseDups, []⟩

/-- The result published under a name. -/
def get? (m : ResultMap) (name : String) : Option ProducerResult :=
  m.published.find? (·.name = name)

/-- Whether results of this name may be published. -/
def contains (m : ResultMap) (name : String) : Bool := m.names.contains name

/-- The number of names. -/
def size (m : ResultMap) : Nat := m.names.length

/-- Whether a result would be published, which is what its publication answers: its name is known,
and has no result yet. -/
def accepts (m : ResultMap) (r : ProducerResult) : Bool :=
  m.contains r.name && (m.get? r.name).isNone

/-- Publishes a result, if it is accepted. -/
def publish (m : ResultMap) (r : ProducerResult) : ResultMap :=
  if m.accepts r then { m with published := m.published ++ [r] } else m

/-- Publishes results one after the other. -/
def publishAll (m : ResultMap) (rs : List ProducerResult) : ResultMap := rs.foldl publish m

/-- The published results, sorted by name. -/
def completed (m : ResultMap) : List ProducerResult :=
  m.published.mergeSort fun r s => decide (r.name ≤ s.name)

/-- Publishing changes the result of one name only, and only if that name had none. -/
theorem get?_publish (m : ResultMap) (r : ProducerResult) (name : String) :
    (m.publish r).get? name = if m.accepts r && r.name = name then some r else m.get? name := by
  unfold publish
  by_cases ha : m.accepts r
  · by_cases hn : r.name = name
    · subst hn
      have hnone : m.published.find? (·.name = r.name) = none := by
        simp only [accepts, Bool.and_eq_true, Option.isNone_iff_eq_none] at ha
        exact ha.2
      simp [ha, get?, hnone]
    · simp [ha, get?, hn]
  · simp [ha]

@[simp] theorem names_publish (m : ResultMap) (r : ProducerResult) :
    (m.publish r).names = m.names := by
  unfold publish
  split <;> rfl

end ResultMap

end Gateway
