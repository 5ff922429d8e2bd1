/-!
# Gateway.Graph.Order — walks on dependency lists

The nodes of a dependency graph are the numbers below some bound, and `deps` lists for each the
nodes it depends on. `finishOrder` is a depth-first walk: it lists every node after those it
depends on, or finds a cycle. `explore` walks in the same way to find out what is below each node,
and goes to no node twice. `reduce` drops what is implied: a dependency that is below another one.
-/

set_option autoImplicit false

namespace Gateway

/-- For each node the nodes it depends on. -/
abbrev Deps := List (List Nat)

/-- For some nodes all that is below them: what they depend on, directly or through others. -/
abbrev Reach := List (Nat × List Nat)

namespace Reach

/-- What is below a node, as far as it is known. -/
def of (known : Reach) (i : Nat) : List Nat := (known.lookup i).getD []

/-- The nodes of a list and what is below them. -/
def gather (known : Reach) (direct : List Nat) : List Nat :=
  (direct.flatMap fun d => d :: known.of d).eraseDups

end Reach

namespace Deps

/-- The nodes that a node depends on. -/
def of (deps : Deps) (i : Nat) : List Nat := deps[i]?.getD []

/-- The cycle that closes when a walk along `path`, innermost node first, comes to `d` again. -/
def closeCycle (path : List Nat) (d : Nat) : List Nat :=
  d :: ((path.takeWhile (· ≠ d)).reverse ++ [d])

theorem length_erase_lt {free : List Nat} {d : Nat} (h : d ∈ free) :
    (free.erase d).length < free.length := by
  have hpos := List.length_pos_of_mem h
  rw [List.length_erase_of_mem h]
  omega

/-- Walks to each node of a list in turn, and from each to its dependencies first. `free` are the
nodes that are not on the path, `done` those that are finished, the last one first. -/
def visit (deps : Deps) (free path done : List Nat) : List Nat → Except (List Nat) (List Nat)
  | [] => .ok done
  | d :: ds =>
    if d ∈ done then visit deps free path done ds
    else if d ∈ free then
      match visit deps (free.erase d) (d :: path) done (deps.of d) with
      | .ok done => visit deps free path (d :: done) ds
      | .error cycle => .error cycle
    else .error (closeCycle path d)
termination_by ds => (free.length, ds.length)
decreasing_by
  · exact Prod.Lex.right _ (by simp)
  · exact Prod.Lex.left _ _ (length_erase_lt ‹_›)
  · exact Prod.Lex.right _ (by simp)

/-- All nodes, each after those it depends on, or a cycle. -/
def finishOrder (deps : Deps) : Except (List Nat) (List Nat) :=
  let nodes := List.range deps.length
  (deps.visit nodes [] [] nodes).map List.reverse

/-- Finds out what is below each node of a list, and before that what is below its dependencies; of
a node in the table it is known. `free` are the nodes that are not on the path. -/
def explore (deps : Deps) (free : List Nat) (known : Reach) : List Nat → Reach
  | [] => known
  | d :: ds =>
    if (known.lookup d).isSome then explore deps free known ds
    else if d ∈ free then
      let known := explore deps (free.erase d) known (deps.of d)
      explore deps free ((d, known.gather (deps.of d)) :: known) ds
    -- a node of the path is come to again on a circle only
    else explore deps free known ds
termination_by ds => (free.length, ds.length)
decreasing_by
  · exact Prod.Lex.right _ (by simp)
  · exact Prod.Lex.left _ _ (length_erase_lt ‹_›)
  · exact Prod.Lex.right _ (by simp)
  · exact Prod.Lex.right _ (by simp)

/-- What is below each node. -/
def reach (deps : Deps) : Reach :=
  let nodes := List.range deps.length
  deps.explore nodes [] nodes

/-- The dependencies of a node without those that others of them imply. -/
def essential (known : Reach) (direct : List Nat) : List Nat :=
  direct.filter fun d => !direct.any fun other => other ≠ d && (known.of other).contains d

/-- The dependencies without those that others of the same node imply. -/
def reduce (deps : Deps) : Deps := deps.map (essential deps.reach)

/-- The nodes that no node depends on. -/
def terminals (deps : Deps) : List Nat :=
  (List.range deps.length).filter fun i => !deps.flatten.contains i

end Deps

end Gateway
