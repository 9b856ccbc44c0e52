import Nodeflow.DataGraph.Basic
import Nodeflow.Walk

/-!
# Building data graphs

Nodes and links are inserted in any order. An input takes one link, of its own type. A graph is
finished when every input is linked and no value is needed for its own computation.
-/

namespace Nodeflow

/-- Why a link or a whole graph is refused. -/
inductive DataGraphError where
  | alreadyLinked (input : InputSocket)
  | typeMismatch (source target : ValueType)
  | unlinkedInput (function input : String)
  | cycle (function : String)
  deriving DecidableEq, Repr

def DataGraphError.name : DataGraphError → String
  | alreadyLinked _ => "AlreadyLinked"
  | typeMismatch .. => "TypeMismatch"
  | unlinkedInput .. => "UnlinkedInput"
  | cycle _ => "Cycle"

def DataGraphError.message : DataGraphError → String
  | alreadyLinked input => "Input socket already linked: " ++ input.described
  | typeMismatch source target =>
    "Cannot link " ++ source.name ++ " output to " ++ target.name ++ " input"
  | unlinkedInput function input =>
    "Input '" ++ input ++ "' of '" ++ function ++ "' is not linked"
  | cycle function => "Graph contains a cycle through '" ++ function ++ "'"

namespace DataGraphBuilder

def insert (b : DataGraphBuilder) (function : Function) (source : Option SourceInfo) :
    DataNode × DataGraphBuilder :=
  let node : DataNode := ⟨b.nodes.size⟩
  let inputs := (Array.range function.inputs.size).map fun i => ⟨node, i, none⟩
  let outputs := (Array.range function.outputs.size).map fun i => ⟨node, i, []⟩
  (node,
    { nodes := b.nodes.push ⟨function, source, b.inputs.size, b.outputs.size⟩
      inputs := b.inputs ++ inputs
      outputs := b.outputs ++ outputs })

def isLinked (b : DataGraphBuilder) (s : InputSocket) : Except Fault Bool :=
  (b.input s).map fun entry => entry.origin.isSome

/-- Records a link at both of its ends. -/
def record (b : DataGraphBuilder) (source : OutputSocket) (target : InputSocket) :
    DataGraphBuilder :=
  { b with
    inputs := b.inputs.modify target.index fun entry => { entry with origin := some source }
    outputs := b.outputs.modify source.index fun entry =>
      { entry with targets := entry.targets ++ [target] } }

/-- Links an output to an input, unless that is refused. -/
def link (b : DataGraphBuilder) (source : OutputSocket) (target : InputSocket) :
    Except Fault (Except DataGraphError DataGraphBuilder) := do
  if ← b.isLinked target then return .error (.alreadyLinked target)
  let sourceType ← b.outputType source
  let targetType ← b.inputType target
  if sourceType ≠ targetType then return .error (.typeMismatch sourceType targetType)
  return .ok (b.record source target)

def unlinked (b : DataGraphBuilder) (entry : InputEntry (Option OutputSocket)) :
    Except Fault DataGraphError := do
  let function ← b.function entry.node
  let parameter ← elementAt function.inputs entry.position
  return .unlinkedInput function.name parameter.name

/-- The inputs with their origins, or the first one that has none. -/
def origins (b : DataGraphBuilder) :
    Except (InputEntry (Option OutputSocket)) (Array (InputEntry OutputSocket)) :=
  b.inputs.mapM fun entry =>
    match entry.origin with
    | some origin => .ok ⟨entry.node, entry.position, origin⟩
    | none => .error entry

end DataGraphBuilder

namespace DataGraph

/-- The nodes that feed a node, one for each of its inputs. -/
def feeders (g : DataGraph) (entry : NodeEntry) : Except Fault (List Nat) :=
  entry.inputSockets.mapM fun s => do
    let origin ← g.output (← g.input s).origin
    return origin.node.index

/-- The first node that a walk against the links finds to feed itself. -/
def cycle? (g : DataGraph) : Except Fault (Option DataNode) := do
  let arrows ← g.nodes.mapM g.feeders
  return (walkFrom arrows (List.range g.nodes.size)).cycle.map .mk

end DataGraph

def DataGraphBuilder.build (b : DataGraphBuilder) :
    Except Fault (Except DataGraphError DataGraph) := do
  match b.origins with
  | .error entry => return .error (← b.unlinked entry)
  | .ok inputs =>
    let graph : DataGraph := ⟨b.nodes, inputs, b.outputs⟩
    match ← graph.cycle? with
    | some node => return .error (.cycle (← graph.function node).name)
    | none => return .ok graph

end Nodeflow
