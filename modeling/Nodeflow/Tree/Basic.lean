import Nodeflow.Tree.Node

/-!
# Node trees

A node tree is edited by adding and removing nodes and by connecting output ports to input ports.
A connection is refused if its ports do not go together, if its input is taken, or if it would join
a node to itself. Trees that come from a file may hold anything.
-/

namespace Nodeflow

structure ConnectionId where
  uuid : Uuid
  deriving DecidableEq, Repr, Inhabited

structure Endpoint where
  node : NodeId
  port : PortId
  deriving DecidableEq, Repr, Inhabited

structure Connection where
  id : ConnectionId
  source : Endpoint
  target : Endpoint
  deriving DecidableEq, Repr, Inhabited

namespace Connection

def involvesNode (c : Connection) (id : NodeId) : Bool := c.source.node == id || c.target.node == id

def involvesPort (c : Connection) (id : PortId) : Bool := c.source.port == id || c.target.port == id

end Connection

/-- Why a connection is refused. -/
inductive ConnectionError where
  | nodeNotFound (node : NodeId)
  | portNotFound (port : PortId)
  | portIndexOutOfRange (position : Nat)
  | incompatiblePorts
  | portAlreadyConnected (port : PortId)
  | selfLoop
  deriving DecidableEq, Repr

def ConnectionError.name : ConnectionError → String
  | nodeNotFound _ => "NodeNotFound"
  | portNotFound _ => "PortNotFound"
  | portIndexOutOfRange _ => "PortIndexOutOfRange"
  | incompatiblePorts => "IncompatiblePorts"
  | portAlreadyConnected _ => "PortAlreadyConnected"
  | selfLoop => "SelfLoop"

def ConnectionError.message : ConnectionError → String
  | nodeNotFound node => "Node not found: " ++ node.described
  | portNotFound port => "Port not found: " ++ port.described
  | portIndexOutOfRange position => "Port index out of range: " ++ toString position
  | incompatiblePorts => "Incompatible port types"
  | portAlreadyConnected port => "Port already connected: " ++ port.described
  | selfLoop => "Self-loop not allowed"

structure Tree where
  name : String
  nodes : OrderedMap NodeId Node := .empty
  connections : OrderedMap ConnectionId Connection := .empty
  deriving Repr, Inhabited

namespace Tree

def addNode (t : Tree) (n : Node) : Tree := { t with nodes := t.nodes.insert n.id n }

/-- Removes a node and the connections that end at it. -/
def removeNode (t : Tree) (id : NodeId) : Tree :=
  { t with
    connections := t.connections.filter fun c => !c.involvesNode id
    nodes := t.nodes.erase id }

def modifyNode (t : Tree) (id : NodeId) (change : Node → Node) : Tree :=
  { t with nodes := t.nodes.modify id change }

def nodesOfType (t : Tree) (idname : String) : List Node :=
  t.nodes.values.filter fun n => n.idname == idname

def connectionsFrom (t : Tree) (port : PortId) : List Connection :=
  t.connections.values.filter fun c => c.source.port == port

def connectionsTo (t : Tree) (port : PortId) : List Connection :=
  t.connections.values.filter fun c => c.target.port == port

/-- Whether a connection leads to a port. -/
def isTaken (t : Tree) (port : PortId) : Bool :=
  t.connections.any fun c => c.target.port == port

def connectionsAtNode (t : Tree) (id : NodeId) : List Connection :=
  t.connections.values.filter fun c => c.involvesNode id

def connectionsAtPort (t : Tree) (id : PortId) : List Connection :=
  t.connections.values.filter fun c => c.involvesPort id

def node (t : Tree) (id : NodeId) : Except ConnectionError Node :=
  match t.nodes.get? id with
  | some n => .ok n
  | none => .error (.nodeNotFound id)

def portOf (n : Node) (id : PortId) : Except ConnectionError Port :=
  match n.port? id with
  | some p => .ok p
  | none => .error (.portNotFound id)

def portAt (ports : List Port) (position : Nat) : Except ConnectionError Port :=
  match ports[position]? with
  | some p => .ok p
  | none => .error (.portIndexOutOfRange position)

/-- Connects an output port to an input port, unless that is refused. -/
def connect (t : Tree) (id : ConnectionId) (source target : Endpoint) :
    Except ConnectionError Tree := do
  let sourceNode ← t.node source.node
  let targetNode ← t.node target.node
  let sourcePort ← portOf sourceNode source.port
  let targetPort ← portOf targetNode target.port
  if sourcePort.direction ≠ .output || targetPort.direction ≠ .input ||
      !sourcePort.connectsTo targetPort.toPortSpec then
    throw .incompatiblePorts
  if !targetPort.multiConnect && t.isTaken target.port then
    throw (.portAlreadyConnected target.port)
  if source.node = target.node then throw .selfLoop
  return { t with connections := t.connections.insert id ⟨id, source, target⟩ }

/-- Connects the ports at two positions: an output of one node and an input of another. -/
def connectAt (t : Tree) (id : ConnectionId) (source : NodeId) (output : Nat) (target : NodeId)
    (input : Nat) : Except ConnectionError Tree := do
  let sourcePort ← portAt (← t.node source).outputs output
  let targetPort ← portAt (← t.node target).inputs input
  t.connect id ⟨source, sourcePort.id⟩ ⟨target, targetPort.id⟩

def disconnect (t : Tree) (id : ConnectionId) : Tree :=
  { t with connections := t.connections.erase id }

/-- Gives the connections other identifiers, both as keys and in the connections themselves. -/
def renameConnections (t : Tree) (rename : ConnectionId → ConnectionId) : Tree :=
  { t with
    connections :=
      ⟨t.connections.entries.map fun (id, c) => (rename id, { c with id := rename c.id })⟩ }

end Tree

end Nodeflow
