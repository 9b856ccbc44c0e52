import Nodeflow.Lowering.Tree
import Nodeflow.FunctionGraph.Dependencies
import Nodeflow.FunctionGraph.Compiled
import Nodeflow.FunctionGraph.Evaluation

/-!
# Functions from trees

A tree becomes a function: its data graph is cut at the sockets of the interface nodes, and the
function graph that results is carried out in up to three ways. The function is kept together with
the tree and the data graph it was made from.
-/

namespace Nodeflow

/-- Something that is kept with a function. -/
inductive Resource where
  | text (text : String)
  | number (number : Nat)
  | tree (tree : Snapshot)
  | dataGraph (tree : LoweredTree)

/-- A function and the named things that are kept with it, oldest first. -/
structure Package where
  function : Function
  resources : List (String × Resource) := []
  deriving Inhabited

namespace Package

def treeName : String := "Virtual Node Tree"

def dataGraphName : String := "VTreeDataGraph"

def keep (p : Package) (name : String) (resource : Resource) : Package :=
  { p with resources := p.resources ++ [(name, resource)] }

def find? {α : Type} (p : Package) (name : String) (accept : Resource → Option α) : Option α :=
  p.resources.findSome? fun (other, resource) => if other = name then accept resource else none

def dataGraph? (p : Package) : Option LoweredTree :=
  p.find? dataGraphName fun | .dataGraph tree => some tree | _ => none

def text (p : Package) : String := p.function.text (p.resources.map Prod.fst)

end Package

/-- The data sockets of a function's arguments and results. -/
structure InterfaceSockets where
  inputs : List DataSocket := []
  outputs : List DataSocket := []
  deriving DecidableEq, Repr, Inhabited

namespace LoweredTree

/-- The data sockets of declared sockets of a tree; no two of them may be the same. -/
def declaredSockets (t : LoweredTree) (declared : List Nat) : Except Fault (List DataSocket) :=
  declared.foldlM
    (fun found i => do
      let s ← t.socket i
      if found.contains s then throw (.mappedTwice i) else return found ++ [s])
    []

/-- The data sockets of the first node of a type, without the placeholder at the end. -/
def interfaceSide (t : LoweredTree) (tree : Snapshot) (idname : String)
    (side : SnapshotNode → List Nat) : Except Fault (List DataSocket) := do
  match (tree.nodesOfType idname).head? with
  | none => return []
  | some n => t.declaredSockets (side (← elementAt tree.nodes n)).dropLast

/-- The data sockets of the interface nodes; a missing node leaves its side empty. -/
def interface (t : LoweredTree) (tree : Snapshot) (config : Config) :
    Except Fault InterfaceSockets := do
  let inputs ← t.interfaceSide tree config.inputNode SnapshotNode.outputs
  let outputs ← t.interfaceSide tree config.outputNode SnapshotNode.inputs
  return { inputs, outputs }

end LoweredTree

namespace FunctionGraph

def function (g : FunctionGraph) (name : String) (config : Config) : Except Fault Function := do
  let f ← g.newFunction name
  let f ← if config.dependenciesBody then g.attachDependencies f else pure f
  let f ← if config.compiledBody then (·.2) <$> g.attachProgram f else pure f
  g.attachEvaluation f

end FunctionGraph

/-- The function of a tree, if the tree has a data graph. -/
def Tree.generate (t : Tree) (config : Config) (inserters : Inserters) :
    Except Fault (Option Package) := do
  let tree := Snapshot.ofTree t
  match ← tree.lower config inserters with
  | .error _ => return none
  | .ok lowered =>
    let sockets ← lowered.interface tree config
    let g ← FunctionGraph.new lowered.graph sockets.inputs sockets.outputs
    let f ← g.function t.name config
    let package : Package := { function := f }
    return some ((package.keep Package.treeName (.tree tree)).keep Package.dataGraphName
      (.dataGraph lowered))

end Nodeflow
