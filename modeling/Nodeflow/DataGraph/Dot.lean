import Nodeflow.DataGraph.Basic

/-!
# Drawings of data graphs

A data graph is drawn in the Graphviz language: a box for each node, then an arrow for each input
socket, labelled with the positions of the two sockets it joins. Names are quoted, so each box and
each arrow takes one line.
-/

namespace Nodeflow.DataGraph

def label (n : NodeEntry) : String :=
  match n.source with
  | some source => n.function.name ++ " (" ++ source.node ++ ")"
  | none => n.function.name

def boxLine (index : Nat) (n : NodeEntry) : String :=
  "  n" ++ toString index ++ " [shape=box, label=" ++ Text.quote (label n) ++ "];\n"

def arrowLine (g : DataGraph) (entry : InputEntry OutputSocket) : Except Fault String := do
  let origin ← g.output entry.origin
  return "  n" ++ toString origin.node.index ++ " -> n" ++ toString entry.node.index ++
    " [taillabel=\"" ++ toString origin.position ++ "\", headlabel=\"" ++
    toString entry.position ++ "\"];\n"

def dot (g : DataGraph) : Except Fault String := do
  let boxes := g.nodes.toList.zipIdx.map fun (n, i) => boxLine i n
  let arrows ← g.inputs.toList.mapM g.arrowLine
  return "digraph \x7b\n  rankdir=LR;\n" ++ String.join boxes ++ String.join arrows ++ "\x7d\n"

end Nodeflow.DataGraph
