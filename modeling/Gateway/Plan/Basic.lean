import Gateway.Producer.Basic

/-!
# Gateway.Plan.Basic — what is called, and in which order

A plan is a tree over the producers of an endpoint: single calls, sequences, whose steps run one
after another and which answer for their last step alone, and parallels, whose branches run at
the same time. `names` tells before a run whose results a plan will yield.
-/

set_option autoImplicit false

namespace Gateway

/-- A plan. A `stub` makes no call: it panics, or yields results that say that there is none. It
may announce other names than it yields. -/
inductive Plan
  | call (p : Producer)
  | sequence (steps : List Plan)
  | parallel (branches : List Plan)
  | stub (announced yielded : List String) (panic : Option (Option String))
  deriving Inhabited

namespace Plan

mutual

/-- The names of the results that a plan yields. -/
def names : Plan → List String
  | .call p => [p.name]
  | .sequence steps => lastNames steps
  | .parallel branches => allNames branches
  | .stub announced .. => announced

/-- The names of a sequence: those of its last step. -/
def lastNames : List Plan → List String
  | [] => []
  | [step] => names step
  | _ :: step :: rest => lastNames (step :: rest)

/-- The names of a parallel: those of all branches, in order. -/
def allNames : List Plan → List String
  | [] => []
  | branch :: rest => names branch ++ allNames rest

end

/-- The number of results that a plan yields. -/
def size (plan : Plan) : Nat := plan.names.length

/-- The parts of a composite plan. -/
def children : Plan → List Plan
  | .sequence steps => steps
  | .parallel branches => branches
  | _ => []

/-- The name of a plan's kind. -/
def kindText : Plan → String
  | .call p => p.kind.text
  | .sequence _ => "sequence"
  | .parallel _ => "parallel"
  | .stub .. => "request"

/-- The name of a plan itself. -/
def label : Plan → String
  | .call p => p.name
  | .stub .. => "broken"
  | plan => plan.kindText

mutual

/-- The layout of a plan: producers by name, composites by kind. -/
def describe : Plan → String
  | .call p => p.name
  | .stub .. => "broken"
  | .sequence steps => "sequence[" ++ ", ".intercalate (describeAll steps) ++ "]"
  | .parallel branches => "parallel[" ++ ", ".intercalate (describeAll branches) ++ "]"

/-- The layouts of several plans. -/
def describeAll : List Plan → List String
  | [] => []
  | plan :: rest => describe plan :: describeAll rest

end

mutual

/-- The producers that a plan calls, once for every place. -/
def calls : Plan → List Producer
  | .call p => [p]
  | .sequence steps => allCalls steps
  | .parallel branches => allCalls branches
  | .stub .. => []

def allCalls : List Plan → List Producer
  | [] => []
  | plan :: rest => calls plan ++ allCalls rest

end

/-- Keeps the first producer of each id. -/
def distinct (ps : List Producer) : List Producer :=
  ps.foldl (fun seen p => if seen.any (·.id = p.id) then seen else seen ++ [p]) []

/-- The producers that a plan calls, each once, in the order of their first places. -/
def producers (plan : Plan) : List Producer := distinct plan.calls

end Plan

end Gateway
