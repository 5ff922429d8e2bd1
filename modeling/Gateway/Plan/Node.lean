import Gateway.Plan.Basic

/-!
# Gateway.Plan.Node — plans whose parts are shared

A call that several others wait for is one thing, although a plan, which is a tree, shows it once for
each of them. So a plan may be kept as a list of *nodes*. The address of a node is its place in the
list, and a node refers to the nodes below it by their addresses: two nodes that refer to one address
share what is there. The plan of a node is the tree that unfolds from it.

A node is added after those below it. This is why the plans of all nodes are found in one pass over
the list, each from the plans of the nodes before it.
-/

set_option autoImplicit false

namespace Gateway

/-- A node: the call of a producer, or a sequence or a parallel of the nodes at some addresses. -/
inductive Node
  | call (p : Producer)
  | sequence (steps : List Nat)
  | parallel (branches : List Nat)

/-- The nodes of a plan, each at its address. -/
abbrev Nodes := List Node

namespace Node

/-- The addresses of the nodes right below a node. -/
def children : Node → List Nat
  | .call _ => []
  | .sequence steps => steps
  | .parallel branches => branches

/-- The plan of a node, given those of the nodes before it. -/
def plan (before : List Plan) : Node → Plan
  | .call p => .call p
  | .sequence steps => .sequence (steps.filterMap (before[·]?))
  | .parallel branches => .parallel (branches.filterMap (before[·]?))

end Node

namespace Nodes

/-- The plans of all nodes. -/
def plans (nodes : Nodes) : List Plan :=
  nodes.foldl (fun before node => before ++ [node.plan before]) []

/-- The plan of the node at an address. -/
def plan (nodes : Nodes) (address : Nat) : Plan := nodes.plans[address]?.getD default

end Nodes

end Gateway
