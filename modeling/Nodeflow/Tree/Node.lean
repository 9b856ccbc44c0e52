import Nodeflow.Tree.Port
import Nodeflow.OrderedMap

/-!
# Nodes and their types

A node type lists the ports that its nodes start with. A node has an identifier of its own and so
have its ports; it can be renamed, and its ports can be changed and added to.
-/

namespace Nodeflow

structure NodeId where
  uuid : Uuid
  deriving DecidableEq, Repr, Inhabited

def NodeId.described (id : NodeId) : String := "NodeId(" ++ id.uuid.toText ++ ")"

inductive NodeCategory where
  | input
  | output
  | math
  | vector
  | logic
  | list
  | custom
  deriving DecidableEq, Repr, Inhabited

def NodeCategory.all : List NodeCategory := [input, output, math, vector, logic, list, custom]

def NodeCategory.name : NodeCategory → String
  | input => "Input"
  | output => "Output"
  | math => "Math"
  | vector => "Vector"
  | logic => "Logic"
  | list => "List"
  | custom => "Custom"

/-- What nodes of one type have in common. -/
structure NodeType where
  /-- The name that nodes refer to their type by. -/
  idname : String
  name : String
  category : NodeCategory
  description : String
  inputs : List PortSpec
  outputs : List PortSpec
  deriving DecidableEq, Repr, Inhabited

structure Node where
  id : NodeId
  idname : String
  name : String
  inputs : List Port
  outputs : List Port
  deriving DecidableEq, Repr, Inhabited

namespace NodeType

/-- The type with one more port, in front of the placeholder if there is one. -/
def insertPort (t : NodeType) (p : PortSpec) : NodeType :=
  match p.direction with
  | .input => { t with inputs := Nodeflow.insertPort PortSpec.type p t.inputs }
  | .output => { t with outputs := Nodeflow.insertPort PortSpec.type p t.outputs }

def portCount (t : NodeType) : Nat := t.inputs.length + t.outputs.length

/-- A new node of the type. Its ports take their identifiers in order, inputs before outputs. -/
def instantiate (t : NodeType) (id : NodeId) (portId : Nat → PortId) : Node where
  id := id
  idname := t.idname
  name := t.name
  inputs := t.inputs.zipIdx.map fun (p, i) => ⟨p, portId i⟩
  outputs := t.outputs.zipIdx.map fun (p, i) => ⟨p, portId (t.inputs.length + i)⟩

end NodeType

namespace Node

/-- All ports, inputs before outputs. -/
def ports (n : Node) : List Port := n.inputs ++ n.outputs

def portsOf (n : Node) : Direction → List Port
  | .input => n.inputs
  | .output => n.outputs

def port? (n : Node) (id : PortId) : Option Port := n.ports.find? fun p => p.id = id

def insertPort (n : Node) (id : PortId) (name : String) (type : PortType) (direction : Direction) :
    Node :=
  let port : Port := ⟨.plain name type direction, id⟩
  match direction with
  | .input => { n with inputs := Nodeflow.insertPort (·.type) port n.inputs }
  | .output => { n with outputs := Nodeflow.insertPort (·.type) port n.outputs }

/-- The node with a port changed, given by its direction and position. -/
def modifyPort (n : Node) (direction : Direction) (position : Nat) (change : Port → Port) : Node :=
  match direction with
  | .input => { n with inputs := n.inputs.modify position change }
  | .output => { n with outputs := n.outputs.modify position change }

end Node

end Nodeflow
