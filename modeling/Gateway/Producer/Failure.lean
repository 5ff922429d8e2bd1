import Gateway.Text.Cut

/-!
# Gateway.Producer.Failure — why a producer has no answer

The failure of one producer travels with its result. A producer that is skipped because of
another carries that one's failure inside a `sequence` failure; failures of the domain, which
tell by themselves what happened, are carried as they are.
-/

set_option autoImplicit false

namespace Gateway

/-- Why a producer fails. -/
inductive Failure
  | transport (backend message : String)
  | unexpectedStatus (producer : String) (status : Nat)
  | sequence (producer : String) (source : Failure)
  | cancelled
  | evaluation (subject message : String)
  | request (message : String)
  | noResult
  deriving DecidableEq, Repr, Inhabited

namespace Failure

/-- The kind of a failure, as error responses name it. -/
def kind : Failure → String
  | .transport .. => "backend"
  | .unexpectedStatus .. => "unexpected_status"
  | .sequence .. | .noResult => "sequence"
  | .cancelled => "cancelled"
  | .evaluation .. => "evaluation"
  | .request .. => "request"

def message : Failure → String
  | .transport backend text => "backend " ++ backend ++ ": " ++ text
  | .unexpectedStatus producer status =>
    "producer " ++ producer ++ ": unexpected status " ++ toString status
  | .sequence producer source => "sequence " ++ producer ++ ": " ++ source.message
  | .cancelled => "request cancelled"
  | .evaluation subject text => "evaluating " ++ subject ++ ": " ++ text
  | .request text => "request: " ++ text
  | .noResult => "sequence: no result"

/-- Whether a failure belongs to the domain: it names its producer itself, or it concerns the
whole request. -/
def isDomain : Failure → Bool
  | .unexpectedStatus .. | .sequence .. | .cancelled => true
  | _ => false

/-- The failure of a producer that is skipped because of this one. -/
def inSequence (f : Failure) (producer : String) : Failure :=
  if f.isDomain then f else .sequence producer f

@[simp] theorem isDomain_inSequence (f : Failure) (producer : String) :
    (f.inSequence producer).isDomain = true := by
  unfold inSequence
  split <;> simp_all [isDomain]

/-- A failure is wrapped once, however many producers are skipped because of it. -/
theorem inSequence_inSequence (f : Failure) (p q : String) :
    (f.inSequence p).inSequence q = f.inSequence p := by
  rw [inSequence, if_pos (isDomain_inSequence f p)]

/-- The failure of a producer whose call panicked. -/
def ofPanic (message : String) : Failure := .request ("panic: " ++ message)

end Failure

end Gateway
