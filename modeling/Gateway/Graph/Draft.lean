import Gateway.Graph.Order
import Gateway.Plan.Node

/-!
# Gateway.Graph.Draft — laying out the nodes of a graph

A producer that depends on no other is a call. Any other one is a sequence: first the nodes of those
it depends on, side by side if there are several, and then its call. The nodes are made depth first,
those of the dependencies before the sequence that waits for them. A draft remembers the node that
was made of a producer, and whoever else depends on the producer is given the same node.
-/

set_option autoImplicit false

namespace Gateway

/-- What has been made of a graph: nodes, and the addresses of those that stand for producers. -/
structure Draft where
  nodes : Nodes := []
  made : List (Nat × Nat) := []

namespace Draft

/-- The address of the node of a producer, if it has been made. -/
def find? (d : Draft) (i : Nat) : Option Nat := d.made.lookup i

/-- Adds a node; its address is new. -/
def add (d : Draft) (node : Node) : Nat × Draft :=
  (d.nodes.length, { d with nodes := d.nodes ++ [node] })

/-- The node of a producer that is called after the nodes at some addresses. -/
def follow (d : Draft) (call : Nat) : List Nat → Nat × Draft
  | [] => (call, d)
  | [dep] => d.add (.sequence [dep, call])
  | deps =>
    let (group, d) := d.add (.parallel deps)
    d.add (.sequence [group, call])

/-- Remembers the node of a producer. -/
def remember (d : Draft) (i address : Nat) : Draft := { d with made := (i, address) :: d.made }

/-- Makes the nodes of producers, and before each of them those of its dependencies, unless they have
been made. The nodes of the list come with it; `free` are the producers that are not on the path. -/
def lay (ps : List Producer) (deps : Deps) (free : List Nat) (d : Draft) :
    List Nat → List Nat × Draft
  | [] => ([], d)
  | i :: rest =>
    match d.find? i, ps[i]? with
    | some address, _ =>
      let (others, d) := lay ps deps free d rest
      (address :: others, d)
    | none, some p =>
      if i ∈ free then
        let (call, d) := d.add (.call p)
        let (before, d) := lay ps deps (free.erase i) d (deps.of i)
        let (address, d) := d.follow call before
        let (others, d) := lay ps deps free (d.remember i address) rest
        (address :: others, d)
      -- a producer of the path is come to again on a circle only
      else lay ps deps free d rest
    | none, none => lay ps deps free d rest
termination_by is => (free.length, is.length)
decreasing_by
  · exact Prod.Lex.right _ (by simp)
  · exact Prod.Lex.left _ _ (Deps.length_erase_lt ‹_›)
  · exact Prod.Lex.right _ (by simp)
  · exact Prod.Lex.right _ (by simp)
  · exact Prod.Lex.right _ (by simp)

end Draft

end Gateway
