import Nodeflow.DataGraph.Basic
import Nodeflow.Walk

/-!
# Function graphs

A function graph is a data graph with sockets chosen for the arguments and for the results of a
function. Any socket can be chosen: an argument replaces whatever the graph would compute for its
socket. `FunctionGraph.source` says where the value of a socket comes from, and
`FunctionGraph.neededNodes` lists the nodes that the results are computed from, each after the
nodes it takes values from.
-/

namespace Nodeflow

/-- A data graph with the sockets of a function's arguments and results. -/
structure FunctionGraph where
  graph : DataGraph
  /-- The sockets of the arguments, each once. -/
  inputs : List DataSocket
  /-- The sockets of the results, each once. -/
  outputs : List DataSocket
  deriving Inhabited

inductive ValueSource where
  | argument (i : Nat)
  | node (output : OutputSocket)
  deriving DecidableEq, Repr

namespace FunctionGraph

/-- The function graph on some sockets of a graph; sockets given twice count once. -/
def new (graph : DataGraph) (inputs outputs : List DataSocket) : Except Fault FunctionGraph :=
  let inputs := inputs.eraseDups
  let outputs := outputs.eraseDups
  match (inputs ++ outputs).find? fun s => !graph.contains s with
  | some s => .error (.foreignSocket s)
  | none => .ok ⟨graph, inputs, outputs⟩

def argument? (g : FunctionGraph) (s : DataSocket) : Option Nat := g.inputs.idxOf? s

/-- Where the value of a socket comes from: an input takes the value of its origin. -/
def source (g : FunctionGraph) (s : DataSocket) : Except Fault ValueSource :=
  match g.argument? s with
  | some i => .ok (.argument i)
  | none => match s with
    | .output output => .ok (.node output)
    | .input input => do
      let origin := (← g.graph.input input).origin
      match g.argument? (.output origin) with
      | some i => return .argument i
      | none => return .node origin

def sourceNode? (g : FunctionGraph) (s : DataSocket) : Except Fault (Option DataNode) := do
  match ← g.source s with
  | .argument _ => return none
  | .node output => return some (← g.graph.output output).node

def sourceNodes (g : FunctionGraph) (sockets : List DataSocket) : Except Fault (List Nat) := do
  return (← sockets.mapM g.sourceNode?).filterMap fun n? => n?.map DataNode.index

/-- The nodes that the results are computed from, each after the nodes it takes values from. -/
def neededNodes (g : FunctionGraph) : Except Fault (List DataNode) := do
  let arrows ← g.graph.nodes.mapM fun n => g.sourceNodes (n.inputSockets.map .input)
  let roots ← g.sourceNodes g.outputs
  return (walkFrom arrows roots).order.toList.map .mk

/-- A function without bodies whose parameters are named and typed like the sockets. -/
def newFunction (g : FunctionGraph) (name : String) : Except Fault Function := do
  let inputs ← g.inputs.mapM g.graph.parameter
  let outputs ← g.outputs.mapM g.graph.parameter
  return { name, inputs := inputs.toArray, outputs := outputs.toArray }

end FunctionGraph

end Nodeflow
