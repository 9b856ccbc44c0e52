import Nodeflow.Function.Basic

/-!
# Data graphs

A data graph computes values with functions: each node runs one function, each input socket takes
its value from one output socket, and an output socket feeds any number of inputs. Sockets are
numbered node by node in the order of insertion, inputs and outputs apart. A link is kept at both of
its ends.

A graph under construction (`DataGraphBuilder`) and a finished one (`DataGraph`) differ only in what
is known of the origins of inputs: during construction an input may still be without one.
-/

namespace Nodeflow

structure NodeEntry where
  function : Function
  source : Option SourceInfo
  firstInput : Nat
  firstOutput : Nat
  deriving Inhabited

structure InputEntry (ω : Type) where
  node : DataNode
  position : Nat
  origin : ω
  deriving Repr, Inhabited

/-- An output socket: its node, its position there, and the inputs it feeds, oldest first. -/
structure OutputEntry where
  node : DataNode
  position : Nat
  targets : List InputSocket := []
  deriving Repr, Inhabited

/-- Nodes and sockets whose inputs have origins of one kind. -/
structure Wiring (ω : Type) where
  nodes : Array NodeEntry := #[]
  inputs : Array (InputEntry ω) := #[]
  outputs : Array OutputEntry := #[]
  deriving Inhabited

/-- A finished graph: every input has an origin. -/
abbrev DataGraph := Wiring OutputSocket

/-- A graph under construction: an input may be without an origin. -/
abbrev DataGraphBuilder := Wiring (Option OutputSocket)

def NodeEntry.inputCount (n : NodeEntry) : Nat := n.function.inputs.size

def NodeEntry.outputCount (n : NodeEntry) : Nat := n.function.outputs.size

def NodeEntry.inputSockets (n : NodeEntry) : List InputSocket :=
  (List.range' n.firstInput n.inputCount).map .mk

def NodeEntry.outputSockets (n : NodeEntry) : List OutputSocket :=
  (List.range' n.firstOutput n.outputCount).map .mk

namespace Wiring

variable {ω : Type}

def node (g : Wiring ω) (n : DataNode) : Except Fault NodeEntry := elementAt g.nodes n.index

def input (g : Wiring ω) (s : InputSocket) : Except Fault (InputEntry ω) :=
  elementAt g.inputs s.index

def output (g : Wiring ω) (s : OutputSocket) : Except Fault OutputEntry :=
  elementAt g.outputs s.index

def function (g : Wiring ω) (n : DataNode) : Except Fault Function :=
  (g.node n).map NodeEntry.function

def inputSocket (g : Wiring ω) (n : DataNode) (position : Nat) : Except Fault InputSocket := do
  let entry ← g.node n
  if position < entry.inputCount then .ok ⟨entry.firstInput + position⟩
  else .error (.noInput n position)

def outputSocket (g : Wiring ω) (n : DataNode) (position : Nat) : Except Fault OutputSocket := do
  let entry ← g.node n
  if position < entry.outputCount then .ok ⟨entry.firstOutput + position⟩
  else .error (.noOutput n position)

def place (g : Wiring ω) : DataSocket → Except Fault (DataNode × Nat)
  | .input s => (g.input s).map fun entry => (entry.node, entry.position)
  | .output s => (g.output s).map fun entry => (entry.node, entry.position)

/-- The parameter that a socket stands for. -/
def parameter (g : Wiring ω) (s : DataSocket) : Except Fault Parameter := do
  let (node, position) ← g.place s
  let function ← g.function node
  match s with
  | .input _ => elementAt function.inputs position
  | .output _ => elementAt function.outputs position

def inputType (g : Wiring ω) (s : InputSocket) : Except Fault ValueType :=
  (g.parameter (.input s)).map Parameter.type

def outputType (g : Wiring ω) (s : OutputSocket) : Except Fault ValueType :=
  (g.parameter (.output s)).map Parameter.type

def contains (g : Wiring ω) : DataSocket → Bool
  | .input s => s.index < g.inputs.size
  | .output s => s.index < g.outputs.size

end Wiring

end Nodeflow
