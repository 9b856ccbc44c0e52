import Nodeflow.FunctionGraph.Basic
import Nodeflow.Function.Dependencies

/-!
# Dependencies through a function graph

A result depends on an argument if a chain of nodes leads from the one to the other, where each node
on the way reads the input it is entered by for the output it is left by. Nodes that tell nothing
about their own dependencies are taken to read all of their inputs for each output.
-/

namespace Nodeflow

/-- For each output socket, the arguments it is computed from, as far as they are known. -/
abbrev Reachable := Array (Option (List Nat))

namespace FunctionGraph

def argumentsOf (g : FunctionGraph) (known : Reachable) (s : DataSocket) :
    Except Fault (List Nat) := do
  match ← g.source s with
  | .argument i => return [i]
  | .node output =>
    match known[output.index]? with
    | some (some found) => return found
    | _ => throw .noEntry

def argumentsOfOutput (g : FunctionGraph) (known : Reachable) (n : DataNode) (position : Nat) :
    Except Fault (List Nat) := do
  let read ← (← g.graph.function n).reads position
  let found ← read.mapM fun i => do
    g.argumentsOf known (.input (← g.graph.inputSocket n i))
  return increasing found.flatten

def reachNode (g : FunctionGraph) (known : Reachable) (n : DataNode) : Except Fault Reachable := do
  let entry ← g.graph.node n
  (List.range entry.outputCount).foldlM
    (fun known position => do
      let found ← g.argumentsOfOutput known n position
      return known.setIfInBounds (entry.firstOutput + position) (some found))
    known

/-- The arguments that each result is computed from. -/
def dependencies (g : FunctionGraph) : Except Fault Dependencies := do
  let known ← (← g.neededNodes).foldlM g.reachNode
    (Array.replicate g.graph.outputs.size none)
  let lists ← g.outputs.mapM (g.argumentsOf known)
  return .ofLists lists

def attachDependencies (g : FunctionGraph) (f : Function) : Except Fault Function := do
  f.attach (.dependencies (← g.dependencies))

end FunctionGraph

end Nodeflow
