import Nodeflow.FunctionGraph.Basic
import Nodeflow.Function.TupleCall
import Nodeflow.Function.LazyCall

/-!
# Evaluating function graphs

A function graph is evaluated on demand: only nodes that a missing result needs are computed, each
at most once. The nodes that wait for their inputs stand on a stack. The innermost one is looked at
until it is finished: if some inputs it needs now have not been computed, their nodes are put on the
stack; otherwise it takes a step. A tuple-call node needs all of its inputs and is finished after
one step. A lazy node takes a step for each entry of its body; between entries it is suspended with
its tuples, and what it needs next are the inputs it has asked for.

A step happens inside a frame that tells where the node comes from.
-/

namespace Nodeflow

/-- A call of a lazy node between two entries. -/
structure SuspendedCall where
  tuples : Tuples
  /-- The state of the call, once it has been opened. -/
  state : Option LazyState
  /-- The inputs to store before the next entry. -/
  needed : List Nat
  deriving Inhabited

/-- How far the evaluation of a function graph has come. -/
structure Evaluation where
  arguments : Array (Option Value)
  /-- The value of each output socket that has been computed. -/
  computed : Array (Option Value)
  finished : Array Bool
  /-- The calls of lazy nodes that are neither finished nor untouched. -/
  suspended : Array (Option SuspendedCall)
  deriving Inhabited

namespace Evaluation

def start (g : FunctionGraph) (arguments : List (Option Value)) : Evaluation where
  arguments := arguments.toArray
  computed := Array.replicate g.graph.outputs.size none
  finished := Array.replicate g.graph.nodes.size false
  suspended := Array.replicate g.graph.nodes.size none

def isFinished (e : Evaluation) (n : DataNode) : Bool := e.finished[n.index]?.getD false

def isComputed (e : Evaluation) (s : OutputSocket) : Bool :=
  (e.computed[s.index]?.getD none).isSome

def suspendedCall? (e : Evaluation) (n : DataNode) : Option SuspendedCall :=
  e.suspended[n.index]?.getD none

def finish (e : Evaluation) (n : DataNode) (outputs : List (OutputSocket × Value)) :
    Evaluation where
  arguments := e.arguments
  computed := outputs.foldl (fun known (s, v) => known.setIfInBounds s.index (some v)) e.computed
  finished := e.finished.setIfInBounds n.index true
  suspended := e.suspended.setIfInBounds n.index none

def suspend (e : Evaluation) (n : DataNode) (call : SuspendedCall) : Evaluation :=
  { e with suspended := e.suspended.setIfInBounds n.index (some call) }

end Evaluation

def NodeEntry.frame (n : NodeEntry) : Frame :=
  match n.source with
  | some info => .source info
  | none => .text n.function.name

namespace FunctionGraph

/-- The value of a socket whose node is finished. -/
def available (g : FunctionGraph) (e : Evaluation) (s : DataSocket) : Except Fault Value := do
  match ← g.source s with
  | .argument i =>
    match ← elementAt e.arguments i with
    | some v => return v
    | none =>
      let parameter ← g.graph.parameter (← elementAt g.inputs.toArray i)
      throw (.argumentMissing i parameter.name)
  | .node output =>
    match e.computed[output.index]? with
    | some (some v) => return v
    | _ => throw .noEntry

/-- The inputs that a node needs before its next step. -/
def neededInputs (e : Evaluation) (n : DataNode) (entry : NodeEntry) : Except Fault (List Nat) :=
  match entry.function.tupleCall?, entry.function.lazyTupleCall? with
  | some _, _ => .ok (List.range entry.inputCount)
  | none, some body =>
    match e.suspendedCall? n with
    | some call => .ok call.needed
    | none => .ok body.alwaysRequired
  | none, none => .error (.notCallable entry.function.name)

/-- The node that has to be computed before an input of another one has a value. -/
def pendingNode? (g : FunctionGraph) (e : Evaluation) (n : DataNode) (position : Nat) :
    Except Fault (Option DataNode) := do
  match ← g.source (.input (← g.graph.inputSocket n position)) with
  | .argument _ => return none
  | .node output =>
    if e.isComputed output then return none else return some (← g.graph.output output).node

def pendingNodes (g : FunctionGraph) (e : Evaluation) (n : DataNode) :
    Except Fault (List DataNode) := do
  let needed ← neededInputs e n (← g.graph.node n)
  return (← needed.mapM (g.pendingNode? e n)).filterMap id

/-- Stores the values of some inputs of a node, except where one is there already. -/
def provideInputs (g : FunctionGraph) (e : Evaluation) (n : DataNode) (positions : List Nat)
    (input : Tuple) : Except Fault Tuple :=
  positions.foldlM
    (fun input i => do
      if ← input.isFilled i then return input
      let v ← g.available e (.input (← g.graph.inputSocket n i))
      return (← input.put i v).2)
    input

def finishNode (e : Evaluation) (n : DataNode) (entry : NodeEntry) (output : Tuple) :
    Except Fault Evaluation := do
  let values ← (List.range entry.outputCount).mapM output.value
  return e.finish n (entry.outputSockets.zip values)

/-- The one step of a tuple-call node. -/
def callNode (g : FunctionGraph) (e : Evaluation) (n : DataNode) (entry : NodeEntry)
    (body : BodyEval Unit) : Eval Evaluation := do
  let tuples := entry.function.newTuples
  let input ← Eval.lift (g.provideInputs e n (List.range entry.inputCount) tuples.input)
  let tuples ← entry.function.callIn body entry.frame { tuples with input }
  Eval.lift (finishNode e n entry tuples.output)

/-- One entry of a lazy node, which then is finished or suspended. -/
def enterNode (g : FunctionGraph) (e : Evaluation) (n : DataNode) (entry : NodeEntry)
    (body : LazyBody) : Eval Evaluation := do
  let function := entry.function
  let call := (e.suspendedCall? n).getD ⟨function.newTuples, none, body.alwaysRequired⟩
  let input ← Eval.lift (g.provideInputs e n call.needed call.tuples.input)
  let state ← match call.state with
    | some state => pure state
    | none => Eval.lift (function.startLazy body input)
  let (needed, state, tuples) ←
    Eval.within entry.frame (function.nextLazy body state { call.tuples with input })
  if state.done then
    let tuples ← function.finishLazy state tuples
    Eval.lift (finishNode e n entry tuples.output)
  else return e.suspend n ⟨tuples, some state, needed⟩

/-- A step of a node whose needed inputs are there. -/
def step (g : FunctionGraph) (e : Evaluation) (n : DataNode) : Eval Evaluation := do
  let entry ← Eval.lift (g.graph.node n)
  match entry.function.tupleCall?, entry.function.lazyTupleCall? with
  | some body, _ => g.callNode e n entry body
  | none, some body => g.enterNode e n entry body
  | none, none => throw (.notCallable entry.function.name)

/--
Works on a stack of nodes, innermost first, until all of them are finished, or ends in the fault
`limit` when the rounds are used up.
-/
def compute (g : FunctionGraph) (limit : Fault) :
    (rounds : Nat) → List DataNode → Evaluation → Eval Evaluation
  | 0, _, _ => throw limit
  | rounds + 1, stack, e =>
    match stack.dropWhile e.isFinished with
    | [] => return e
    | n :: rest => do
      let pending ← Eval.lift (g.pendingNodes e n)
      if pending.isEmpty then
        let e ← g.step e n
        g.compute limit rounds (n :: rest) e
      else g.compute limit rounds (pending.reverse ++ n :: rest) e

/--
A bound for the rounds of an evaluation whose lazy calls are over after a number of entries. At
least every second round ends with a step, and a node takes a step for each entry.
-/
def roundsFor (g : FunctionGraph) (entries : Nat) : Nat :=
  2 * (g.graph.nodes.size + 1) * (entries + 1)

/-- Enough rounds for lazy nodes that leave the counts of their entries alone. -/
def rounds (g : FunctionGraph) : Nat := g.roundsFor UInt32.size

def value (g : FunctionGraph) (limit : Fault) (rounds : Nat) (e : Evaluation) (s : DataSocket) :
    Eval (Value × Evaluation) := do
  let e ← match ← Eval.lift (g.sourceNode? s) with
    | some n => g.compute limit rounds [n] e
    | none => pure e
  return (← Eval.lift (g.available e s), e)

/-- Computes the results that are missing from an output tuple. -/
def computeResults (g : FunctionGraph) (limit : Fault) (rounds : Nat) (e : Evaluation)
    (output : Tuple) : Eval Tuple := do
  let (output, _) ← g.outputs.zipIdx.foldlM
    (fun (output, e) (s, o) => do
      if ← Eval.lift (output.isFilled o) then return (output, e)
      let (v, e) ← g.value limit rounds e s
      return ((← Eval.lift (output.put o v)).2, e))
    (output, e)
  return output

def evaluateWithin (g : FunctionGraph) (limit : Fault) (rounds : Nat) : BodyEval Unit := do
  let tuples ← get
  let output ← liftM (g.computeResults limit rounds (.start g tuples.input.contents) tuples.output)
  set (Tuples.mk tuples.input.clear output)

/--
The tuple-call body that evaluates the graph. Arguments that no missing result needs may be empty.
-/
def evaluate (g : FunctionGraph) : BodyEval Unit := g.evaluateWithin .counterOverflow g.rounds

def attachEvaluation (g : FunctionGraph) (f : Function) : Except Fault Function :=
  f.attach (.tupleCall g.evaluate)

end FunctionGraph

end Nodeflow
