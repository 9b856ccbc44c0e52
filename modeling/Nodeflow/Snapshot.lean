import Nodeflow.Tree.Basic

/-!
# Snapshots of trees

A snapshot lists the nodes and the ports of a tree at one moment. Its nodes are numbered in the
order of the tree, and its sockets, one for each port, node by node, inputs before outputs. A link
is kept at both of its ends; connections that name an unknown port leave no trace. If several ports
have one identifier, links go to the last of them.
-/

namespace Nodeflow

structure SnapshotNode where
  /-- The number of the node. -/
  id : Nat
  idname : String
  name : String
  /-- The numbers of the input sockets, in order. -/
  inputs : List Nat
  /-- The numbers of the output sockets, in order. -/
  outputs : List Nat
  deriving DecidableEq, Repr, Inhabited

structure SnapshotSocket where
  /-- The number of the socket. -/
  id : Nat
  node : Nat
  /-- The position among the node's sockets on the same side. -/
  position : Nat
  port : Port
  /-- The sockets at the other ends of its links, oldest first. -/
  links : List Nat := []
  deriving DecidableEq, Repr, Inhabited

def SnapshotSocket.isInput (s : SnapshotSocket) : Bool := s.port.direction == .input

def SnapshotSocket.isLinked (s : SnapshotSocket) : Bool := !s.links.isEmpty

/-- A numbered copy of a tree. -/
structure Snapshot where
  name : String
  nodes : Array SnapshotNode := #[]
  sockets : Array SnapshotSocket := #[]
  deriving Repr, Inhabited

namespace Snapshot

/-- The sockets for the ports of a node on one side, numbered from some number on. -/
def socketsFrom (first node : Nat) (ports : List Port) : List SnapshotSocket :=
  ports.zipIdx.map fun (port, position) => { id := first + position, node, position, port }

/-- Adds a node with a socket for each of its ports. -/
def addNode (s : Snapshot) (n : Node) : Snapshot :=
  let node := s.nodes.size
  let firstInput := s.sockets.size
  let firstOutput := firstInput + n.inputs.length
  { s with
    nodes := s.nodes.push
      { id := node
        idname := n.idname
        name := n.name
        inputs := List.range' firstInput n.inputs.length
        outputs := List.range' firstOutput n.outputs.length }
    sockets := s.sockets ++ (socketsFrom firstInput node n.inputs).toArray ++
      (socketsFrom firstOutput node n.outputs).toArray }

/-- The last socket that was made from a port, among those before a number. -/
def socketBefore? (s : Snapshot) (port : PortId) : (bound : Nat) → Option Nat
  | 0 => none
  | i + 1 =>
    if (s.sockets[i]?).any fun socket => socket.port.id = port then some i
    else s.socketBefore? port i

def socketOf? (s : Snapshot) (port : PortId) : Option Nat := s.socketBefore? port s.sockets.size

def addEnd (s : Snapshot) (socket other : Nat) : Snapshot :=
  { s with
    sockets := s.sockets.modify socket fun entry => { entry with links := entry.links ++ [other] } }

/-- Links the sockets of two ports; tells whether both ports are known. -/
def addLink (s : Snapshot) (source target : PortId) : Bool × Snapshot :=
  match s.socketOf? source, s.socketOf? target with
  | some a, some b => (true, (s.addEnd a b).addEnd b a)
  | _, _ => (false, s)

def addLinks (s : Snapshot) : List (PortId × PortId) → List Bool × Snapshot
  | [] => ([], s)
  | (source, target) :: rest =>
    let (known, s) := s.addLink source target
    let (others, s) := s.addLinks rest
    (known :: others, s)

def build (name : String) (nodes : List Node) (links : List (PortId × PortId)) :
    List Bool × Snapshot :=
  (nodes.foldl addNode { name }).addLinks links

def ofTree (t : Tree) : Snapshot :=
  (build t.name t.nodes.values
    (t.connections.values.map fun c => (c.source.port, c.target.port))).2

/-- The numbers of the nodes of each type, collected node by node. -/
def byIdname (s : Snapshot) : OrderedMap String (List Nat) :=
  s.nodes.foldl
    (fun index node => index.insert node.idname ((index.get? node.idname).getD [] ++ [node.id])) .empty

/-- The nodes of a type as the index has them, none if it does not know the type. -/
def nodesOfType (s : Snapshot) (idname : String) : List Nat := (s.byIdname.get? idname).getD []

end Snapshot

end Nodeflow
