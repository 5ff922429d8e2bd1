import Gateway.Graph.Draft
import Gateway.Text.Quoted

/-!
# Gateway.Graph.Basic — from producers to a plan

A producer depends on the other producers that its attributes refer to. The producers of an
endpoint make a graph unless two share a name, one refers to itself on its request side, or some
refer to each other in a circle; the graph has a plan in which every producer is called after
those it depends on. The plan is kept as nodes, since a producer that several others depend on is one
thing in it.
-/

set_option autoImplicit false

namespace Gateway

/-- Why producers make no graph. -/
inductive GraphError
  | duplicateName (name : String)
  | selfReference (name : String)
  | cycle (names : List String)
  deriving DecidableEq, Repr

/-- The wording of a refusal. -/
def GraphError.message : GraphError → String
  | .duplicateName name => "duplicate producer name " ++ quote name
  | .selfReference name => "producer " ++ quote name ++ " references its own result"
  | .cycle names => "circular sequence reference: " ++ " -> ".intercalate names

/-- The producers of an endpoint, what they depend on, and the nodes of their plan. -/
structure Graph where
  producers : List Producer
  deps : Deps
  nodes : Nodes
  root : Nat

namespace Graph

/-- The first name that an earlier producer has too. -/
def duplicate? : List String → List String → Option String
  | _, [] => none
  | seen, name :: rest =>
    if seen.contains name then some name else duplicate? (name :: seen) rest

/-- The first producer that refers to itself on its request side. -/
def selfReference? (ps : List Producer) : Option String :=
  (ps.find? fun p => p.requestReferences.contains p.name).map (·.name)

/-- The producers that a producer depends on, in the order in which they are declared. -/
def dependencies (ps : List Producer) (p : Producer) : List Nat :=
  let names := p.requestReferences ++ p.responseReferences
  (ps.filter fun q => names.contains q.name).map (·.id)

/-- Gives each producer its place as id. -/
def numbered (ps : List Producer) : List Producer :=
  ps.zipIdx.map fun (p, i) => { p with id := i }

/-- The names of the producers with some ids. -/
def namesOf (ps : List Producer) (ids : List Nat) : List String :=
  ids.filterMap fun i => ps[i]?.map (·.name)

/-- The graph of some producers. -/
def build (declared : List Producer) : Except GraphError Graph :=
  let ps := numbered declared
  match duplicate? [] (ps.map (·.name)), selfReference? ps with
  | some name, _ => .error (.duplicateName name)
  | none, some name => .error (.selfReference name)
  | none, none =>
    let deps : Deps := ps.map (dependencies ps)
    match deps.finishOrder with
    | .error cycle => .error (.cycle (namesOf ps cycle))
    | .ok _ =>
      let (branches, d) := Draft.lay ps deps.reduce (List.range ps.length) {} deps.terminals
      let (root, d) := d.add (.parallel branches)
      .ok ⟨ps, deps, d.nodes, root⟩

/-- The plan that unfolds from the root of a graph. -/
def plan (g : Graph) : Plan := g.nodes.plan g.root

/-- The names of the producers that a producer depends on. -/
def dependencyNames (g : Graph) (p : Producer) : List String := namesOf g.producers (g.deps.of p.id)

/-- The names of the producers that no other depends on. -/
def terminals (g : Graph) : List String := namesOf g.producers (Deps.terminals g.deps)

/-- The number of results of a run. -/
def size (g : Graph) : Nat := g.plan.size

/-- Whether there are no producers. -/
def isEmpty (g : Graph) : Bool := g.producers.isEmpty

/-- A graph on one line. -/
def display (g : Graph) : String :=
  "CompiledGraph \x7b tree: " ++ quote g.plan.describe ++ ", terminals: ["
    ++ ", ".intercalate (g.terminals.map quote) ++ "] \x7d"

end Graph

end Gateway
