import Nodeflow.Tree.Catalogue
import Nodeflow.Tree.Supply

/-!
# Editing trees

An editor holds a tree, the types that its nodes can have, and the supply of identifiers for what is
added. Only things that are in fact added use up an identifier.
-/

namespace Nodeflow

/-- A tree that is being edited. -/
structure Editor where
  catalogue : Catalogue := .standard
  tree : Tree
  supply : Supply := {}
  deriving Inhabited

namespace Editor

def add (e : Editor) (t : NodeType) (name : String := t.name) : NodeId × Editor :=
  let (n, supply) := e.supply.newNode t
  (n.id, { e with supply, tree := e.tree.addNode { n with name } })

def insertPort (e : Editor) (node : NodeId) (name : String) (type : PortType)
    (direction : Direction) : PortId × Editor :=
  let (id, supply) := e.supply.newPort
  (id, { e with
    supply
    tree := e.tree.modifyNode node fun n => n.insertPort id name type direction })

/-- The editor after its next connection has been made by a change of the tree. -/
def connected (e : Editor) (change : ConnectionId → Except ConnectionError Tree) :
    Except ConnectionError (ConnectionId × Editor) := do
  let id := e.supply.nextConnection
  let tree ← change id
  return (id, { e with tree, supply := e.supply.useConnection })

def connect (e : Editor) (source target : Endpoint) :
    Except ConnectionError (ConnectionId × Editor) :=
  e.connected fun id => e.tree.connect id source target

def connectAt (e : Editor) (source : NodeId) (output : Nat) (target : NodeId) (input : Nat) :
    Except ConnectionError (ConnectionId × Editor) :=
  e.connected fun id => e.tree.connectAt id source output target input

end Editor

end Nodeflow
