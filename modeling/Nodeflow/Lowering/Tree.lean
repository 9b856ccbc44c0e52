import Nodeflow.Lowering.Inserter
import Nodeflow.Lowering.Link

/-!
# Lowered trees

A lowered tree is the data graph of a tree together with the data sockets that stand for the sockets
of the tree.
-/

namespace Nodeflow

structure LoweredTree where
  graph : DataGraph
  /-- The data socket of each socket of the tree, if there is one. -/
  sockets : Array (Option DataSocket)
  deriving Inhabited

namespace LoweredTree

def socket? (t : LoweredTree) (i : Nat) : Option DataSocket := t.sockets[i]?.getD none

def socket (t : LoweredTree) (i : Nat) : Except Fault DataSocket :=
  match t.socket? i with
  | some s => .ok s
  | none => .error (.unmapped i)

end LoweredTree

namespace Lower

/-- A tree may have one node of each interface type. -/
def checkInterface (tree : Snapshot) (config : Config) : Lower Unit :=
  [config.inputNode, config.outputNode].forM fun idname => do
    let count := (tree.nodesOfType idname).length
    if count > 1 then throw (.duplicateInterfaceNode idname count)

def insertNode (tree : Snapshot) (inserters : Inserters) (node : SnapshotNode) : Lower Unit :=
  match inserters.get? node.idname with
  | some inserter => inserter tree node
  | none => throw (.unknownNodeType node.idname node.name)

/-- Inserts all nodes, then the links, then the constants. -/
def insertTree (tree : Snapshot) (config : Config) (inserters : Inserters) : Lower Unit := do
  checkInterface tree config
  tree.nodes.toList.forM (insertNode tree inserters)
  linkInputs tree
  insertConstants tree

end Lower

def Snapshot.lower (tree : Snapshot) (config : Config) (inserters : Inserters) :
    Except Fault (Except LoweringError LoweredTree) := do
  match ← ((Lower.insertTree tree config inserters).run (.start tree)).run with
  | .error e => return .error e
  | .ok ((), draft) =>
    match ← draft.builder.build with
    | .error e => return .error (.dataGraph e)
    | .ok graph => return .ok ⟨graph, draft.sockets⟩

end Nodeflow
