import Nodeflow.Tree.Basic
import Nodeflow.Walk

/-!
# The order of a tree

The nodes of a tree can be put in order, each after the nodes it takes values from, unless its
connections run in a circle. A connection may name a node that the tree does not have; such a node
is ordered too if it is met on the way.
-/

namespace Nodeflow.Tree

/-- The nodes of the tree in order, and behind them those that only connections name. -/
def knownNodes (t : Tree) : List NodeId :=
  (t.nodes.keys ++ t.connections.values.flatMap fun c => [c.target.node, c.source.node]).eraseDups

/-- For each node, by position, the positions of the nodes that are connected to it. -/
def feeders (t : Tree) (known : List NodeId) : Array (List Nat) :=
  let connections := t.connections.values
  (known.map fun id =>
    (connections.filter fun c => c.target.node = id).filterMap fun c =>
      known.idxOf? c.source.node).toArray

/-- The nodes in order, each after those connected to it; nothing if connections run in a circle. -/
def topologicalOrder? (t : Tree) : Option (List NodeId) :=
  let known := t.knownNodes
  let walk := walkFrom (t.feeders known) (List.range t.nodes.size)
  match walk.cycle with
  | some _ => none
  | none => some (walk.order.toList.filterMap fun i => known[i]?)

end Nodeflow.Tree
