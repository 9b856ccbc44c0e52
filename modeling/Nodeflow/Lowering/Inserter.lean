import Nodeflow.Lowering.Draft
import Nodeflow.Config
import Nodeflow.Builtin.Arithmetic
import Nodeflow.Builtin.Constant
import Nodeflow.Builtin.FloatList
import Nodeflow.Builtin.Switch
import Nodeflow.Builtin.Vector

/-!
# Inserters

Each node of a tree is handed to the inserter for its type, which inserts what stands for it into
the data graph. The nodes of builtin functions become one data node each. The interface nodes become
placeholders: all their sockets but the last are parameters of the function.
-/

namespace Nodeflow

/-- Inserts what stands for a node of a tree. -/
abbrev Inserter := Snapshot → SnapshotNode → Lower Unit

/-- Inserters by the name of the node type. -/
abbrev Inserters := OrderedMap String Inserter

namespace Inserter

/-- Inserts one function whose parameters are the sockets of the node. -/
def ofFunction (function : Function) : Inserter := fun tree node => do
  let inserted ← Lower.insert tree function (some node)
  Lower.mapSockets tree node inserted

def functionInput : Inserter := fun tree node => do
  let declared := node.outputs.dropLast
  let parameters ← declared.mapM (Lower.parameter tree node)
  let inserted ← Lower.insert tree (Builtin.functionInput parameters) (some node)
  declared.zipIdx.forM fun (socket, position) => do
    Lower.map socket (.output (← Lower.look (Wiring.outputSocket · inserted position)))

def functionOutput : Inserter := fun tree node => do
  let declared := node.inputs.dropLast
  let results ← declared.mapM (Lower.parameter tree node)
  let inserted ← Lower.insert tree (Builtin.functionOutput results) (some node)
  declared.zipIdx.forM fun (socket, position) => do
    Lower.map socket (.input (← Lower.look (Wiring.inputSocket · inserted position)))

end Inserter

namespace Inserters

def builtinFunctions : List (String × Function) :=
  [(Idname.addFloats, Builtin.addFloats),
    (Idname.subtractFloats, Builtin.subtractFloats),
    (Idname.multiplyFloats, Builtin.multiplyFloats),
    (Idname.divideFloats, Builtin.divideFloats),
    (Idname.combineVector, Builtin.combineVector),
    (Idname.separateVector, Builtin.separateVector),
    (Idname.switchFloat, Builtin.switchFloat),
    (Idname.floatListSum, Builtin.floatListSum),
    (Idname.floatRange, Builtin.floatRange)]

/-- The inserters of the configured interface nodes and of the builtin node types. -/
def builtin (config : Config) : Inserters :=
  OrderedMap.ofList
    ((config.inputNode, Inserter.functionInput) :: (config.outputNode, Inserter.functionOutput) ::
      builtinFunctions.map fun (idname, function) => (idname, Inserter.ofFunction function))

end Inserters

end Nodeflow
