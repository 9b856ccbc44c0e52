import Nodeflow.FunctionGraph.Evaluation
import Nodeflow.Proofs.FunctionGraph.Sources
import Nodeflow.Proofs.Function.Entries
import Nodeflow.Proofs.Function.Limits

/-!
# Evaluating function graphs by recursion

What a function graph is meant to compute: the value of a socket is an argument, or an output of a
node, which is carried out on the values of its inputs. A lazy node is carried out by one
uninterrupted call whose provider computes what the node asks for, with as many entries as it takes.

The recursion descends along the links, which have no cycle in a finished graph.
-/

namespace Nodeflow

open Eval

namespace NodeEntry

/-- Stores the values of some inputs. -/
def preset (input : Nat → Except Fault Value) (positions : List Nat) (t : Tuple) :
    Except Fault Tuple :=
  positions.foldlM (fun t i => do return (← t.put i (← input i)).2) t

/-- The provider that stores the value of the input it is asked for. -/
def provide (input : Nat → Except Fault Value) (i : Nat) (t : Tuple) : Eval Tuple :=
  Eval.lift (preset input [i] t)

def outputValues (n : NodeEntry) (output : Tuple) : Except Fault (List Value) :=
  (List.range n.outputCount).mapM output.value

/-- A tuple-call node: all inputs are stored, and the body is called. -/
def call (n : NodeEntry) (body : BodyEval Unit) (input : Nat → Except Fault Value) :
    Except Fault (List Value) := do
  let tuples := n.function.newTuples
  let t ← preset input (List.range n.inputCount) tuples.input
  let tuples ← (n.function.call body { tuples with input := t }).result
  n.outputValues tuples.output

/--
A lazy node that is given a number of entries: the inputs it always requires are stored, and it
provides the others by need.
-/
def callLazyWithin (n : NodeEntry) (body : LazyBody) (input : Nat → Except Fault Value) (limit : Fault)
    (entries : Nat) : Except Fault (List Value) := do
  let tuples := n.function.newTuples
  let t ← preset input body.alwaysRequired tuples.input
  let (_, tuples) ← Eval.result <|
    n.function.callLazyWithin body (provide input) limit entries { tuples with input := t }
  n.outputValues tuples.output

noncomputable def callLazy (n : NodeEntry) (body : LazyBody) (input : Nat → Except Fault Value) :
    Except Fault (List Value) :=
  unlimited (n.callLazyWithin body input)

/-- The outputs of a node whose inputs are computed by `input`. -/
noncomputable def evaluate (n : NodeEntry) (input : Nat → Except Fault Value) : Except Fault (List Value) :=
  match n.function.tupleCall?, n.function.lazyTupleCall? with
  | some body, _ => n.call body input
  | none, some body => n.callLazy body input
  | none, none => .error (.notCallable n.function.name)

end NodeEntry

namespace FunctionGraph

variable (g : FunctionGraph)

def argumentValue (arguments : List (Option Value)) (i : Nat) : Except Fault Value := do
  match ← elementAt arguments.toArray i with
  | some v => return v
  | none =>
    let parameter ← g.graph.parameter (← elementAt g.inputs.toArray i)
    throw (.argumentMissing i parameter.name)

noncomputable def nodeOutputs (acyclic : WellFounded g.graph.Feeds) (arguments : List (Option Value))
    (n : DataNode) : Except Fault (List Value) := do
  let entry ← g.graph.node n
  entry.evaluate fun i =>
    match _ : g.inputSource n i with
    | .error fault => .error fault
    | .ok (.argument k) => g.argumentValue arguments k
    | .ok (.node o) =>
      match _ : g.graph.output o with
      | .error fault => .error fault
      | .ok origin => do
        elementAt (← nodeOutputs acyclic arguments origin.node).toArray origin.position
termination_by acyclic.wrap n
decreasing_by exact g.feeds_of_inputSource ‹_› ‹_›

variable (acyclic : WellFounded g.graph.Feeds) (arguments : List (Option Value))

/-- The value of an output, from the outputs of its node. -/
noncomputable def outputValue (o : OutputSocket) : Except Fault Value := do
  let entry ← g.graph.output o
  elementAt (← g.nodeOutputs acyclic arguments entry.node).toArray entry.position

/-- The value that a socket takes from where it comes from. -/
noncomputable def sourceValue : ValueSource → Except Fault Value
  | .argument i => g.argumentValue arguments i
  | .node o => g.outputValue acyclic arguments o

noncomputable def socketValue (s : DataSocket) : Except Fault Value :=
  g.source s >>= g.sourceValue acyclic arguments

noncomputable def inputValue (n : DataNode) (i : Nat) : Except Fault Value :=
  g.inputSource n i >>= g.sourceValue acyclic arguments

/-- Stores a result, unless there is one already. -/
noncomputable def addResult (output : Tuple) : DataSocket × Nat → Except Fault Tuple
  | (s, o) => do
    if ← output.isFilled o then return output
    return (← output.put o (← g.socketValue acyclic arguments s)).2

/-- The results that are missing from an output tuple are stored in it. -/
noncomputable def results (output : Tuple) : Except Fault Tuple :=
  g.outputs.zipIdx.foldlM (g.addResult acyclic arguments) output

theorem nodeOutputs_eq (n : DataNode) : g.nodeOutputs acyclic arguments n =
    g.graph.node n >>= fun entry => entry.evaluate (g.inputValue acyclic arguments n) := by
  rw [nodeOutputs]
  congr 1
  funext entry
  congr 1
  funext i
  unfold inputValue
  split
  case h_1 fault hs =>
      rw [hs]
      rfl
  case h_2 k hs =>
      rw [hs]
      rfl
  case h_3 o hs =>
      rw [hs]
      change _ = g.outputValue acyclic arguments o
      unfold outputValue
      split
      case h_1 fault ho =>
          rw [ho]
          rfl
      case h_2 origin ho =>
          rw [ho]
          rfl

end FunctionGraph

end Nodeflow
