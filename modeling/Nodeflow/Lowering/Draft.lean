import Nodeflow.Lowering.Error
import Nodeflow.Snapshot

/-!
# The draft of a data graph

While a tree is lowered, its data graph is a draft: a graph under construction, and for each socket
of the tree the data socket that stands for it, if there is one yet.
-/

namespace Nodeflow

/-- A data graph under construction and what stands for the sockets of a tree. -/
structure Draft where
  builder : DataGraphBuilder := {}
  /-- The data socket of each socket of the tree. -/
  sockets : Array (Option DataSocket)
  deriving Inhabited

/-- A step of lowering: it changes the draft, finds that the tree has no graph, or is a fault. -/
abbrev Lower := StateT Draft (ExceptT LoweringError (Except Fault))

def Draft.start (tree : Snapshot) : Draft := { sockets := Array.replicate tree.sockets.size none }

namespace Lower

def lift {α : Type} (result : Except Fault α) : Lower α := liftM result

def look {α : Type} (f : DataGraphBuilder → Except Fault α) : Lower α := do lift (f (← get).builder)

def socket (tree : Snapshot) (i : Nat) : Lower SnapshotSocket := lift (elementAt tree.sockets i)

/-- Inserts a node into the data graph; a node of the tree it stands for is its source. -/
def insert (tree : Snapshot) (function : Function) (node : Option SnapshotNode) :
    Lower DataNode := do
  let draft ← get
  let source := node.map fun n => SourceInfo.mk tree.name n.name
  let (inserted, builder) := DataGraphBuilder.insert draft.builder function source
  set { draft with builder }
  return inserted

def map (socket : Nat) (data : DataSocket) : Lower Unit :=
  modify fun draft => { draft with sockets := draft.sockets.setIfInBounds socket (some data) }

def mapped? (socket : Nat) : Lower (Option DataSocket) := do
  return (← get).sockets[socket]?.getD none

def link (source : OutputSocket) (target : InputSocket) : Lower (Except DataGraphError Unit) := do
  let draft ← get
  match ← lift (DataGraphBuilder.link draft.builder source target) with
  | .ok builder =>
    set { draft with builder }
    return .ok ()
  | .error e => return .error e

def typesMatch (tree : Snapshot) (sockets : List Nat) (parameters : Array Parameter) : Bool :=
  (sockets.map fun i => (tree.sockets[i]?).bind fun s => s.port.type.valueType?) ==
    parameters.toList.map fun p => some p.type

/-- Lets the sockets of a data node stand for those of a node of the tree, in order. -/
def mapSockets (tree : Snapshot) (node : SnapshotNode) (inserted : DataNode) : Lower Unit := do
  let function ← look (Wiring.function · inserted)
  if !typesMatch tree node.inputs function.inputs ||
      !typesMatch tree node.outputs function.outputs then
    throw (.signatureMismatch node.name function.name)
  node.inputs.zipIdx.forM fun (socket, position) => do
    map socket (.input (← look (Wiring.inputSocket · inserted position)))
  node.outputs.zipIdx.forM fun (socket, position) => do
    map socket (.output (← look (Wiring.outputSocket · inserted position)))

/-- The parameter that a socket of an interface node declares. -/
def parameter (tree : Snapshot) (node : SnapshotNode) (i : Nat) : Lower Parameter := do
  let port := (← socket tree i).port
  match port.type.valueType? with
  | some type => return ⟨port.name, type⟩
  | none => throw (.unsupportedSocketType node.name port.name port.type)

end Lower

end Nodeflow
