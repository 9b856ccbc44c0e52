import Nodeflow.FunctionGraph.Basic
import Nodeflow.Function.Compiled

/-!
# Compiling function graphs

The nodes that the results are computed from are emitted one after another into one program. Each
result and each input of a node is then the register of an argument or of an output emitted before.
A single node that cannot be emitted leaves the graph without a program.
-/

namespace Nodeflow

/-- For each output socket, its register, as far as its node has been emitted. -/
abbrev Emitted := Array (Option Register)

namespace FunctionGraph

/-- The register of a socket; its node must have been emitted before. -/
def registerOf (g : FunctionGraph) (arguments : List Register) (emitted : Emitted)
    (s : DataSocket) : Emit Register := do
  match ← (g.source s : Except Fault ValueSource) with
  | .argument i => Emit.pick arguments i
  | .node output =>
    match emitted[output.index]? with
    | some (some r) => return r
    | _ => throw .noEntry

/-- Emits a node; gives nothing if its function cannot be emitted. -/
def emitNode (g : FunctionGraph) (arguments : List Register) (emitted : Emitted) (n : DataNode) :
    Emit (Option Emitted) := do
  let entry ← (g.graph.node n : Except Fault NodeEntry)
  match entry.function.compiled? with
  | none => return none
  | some emitter =>
    let inputs ← entry.inputSockets.mapM fun s => g.registerOf arguments emitted (.input s)
    let outputs ← entry.function.emit emitter inputs
    return some <| (entry.outputSockets.zip outputs).foldl
      (fun emitted (s, r) => emitted.setIfInBounds s.index (some r)) emitted

def emitNodes (g : FunctionGraph) (arguments : List Register) :
    List DataNode → Emitted → Emit (Option Emitted)
  | [], emitted => return some emitted
  | n :: rest, emitted => do
    match ← g.emitNode arguments emitted n with
    | none => return none
    | some emitted => g.emitNodes arguments rest emitted

/-- Emits the whole graph; gives the registers of the arguments and of the results. -/
def emit (g : FunctionGraph) : Emit (Option (List Register × List Register)) := do
  let arguments ← Emit.newRegisters g.inputs.length
  let nodes ← (g.neededNodes : Except Fault (List DataNode))
  match ← g.emitNodes arguments nodes (Array.replicate g.graph.outputs.size none) with
  | none => return none
  | some emitted =>
    let results ← g.outputs.mapM (g.registerOf arguments emitted)
    return some (arguments, results)

def program? (g : FunctionGraph) : Except Fault (Option Program) := do
  let (registers, builder) ← g.emit.run {}
  return registers.map fun (arguments, results) => builder.finish arguments results

def attachProgram (g : FunctionGraph) (f : Function) : Except Fault (Bool × Function) := do
  match ← g.program? with
  | none => return (false, f)
  | some p => return (true, ← f.attach (.ofProgram p))

end FunctionGraph

end Nodeflow
