import Nodeflow.Lowering.Draft
import Nodeflow.Builtin.Constant
import Nodeflow.Builtin.Conversion

/-!
# Links and constants

When all nodes of a tree are in the data graph, each input of the tree that has a data input is
linked to the data outputs of its links, in order; a conversion is put on a link between numbers of
different kinds. Data inputs that are still without an origin then take the value of their port from
a constant.
-/

namespace Nodeflow.Lower

/-- Links two data sockets, with a conversion between them where their types differ. -/
def linkConverted (tree : Snapshot) (source : OutputSocket) (target : InputSocket) :
    Lower (Except DataGraphError Unit) := do
  let sourceType ← look (Wiring.outputType · source)
  let targetType ← look (Wiring.inputType · target)
  if sourceType = targetType then link source target
  else
    match Builtin.conversion? sourceType targetType with
    | none => return .error (.typeMismatch sourceType targetType)
    | some conversion =>
      let node ← insert tree conversion none
      let input ← look (Wiring.inputSocket · node 0)
      let output ← look (Wiring.outputSocket · node 0)
      match ← link source input with
      | .error e => return .error e
      | .ok () => link output target

/-- Links a data input to what stands for the other end of a link, if that is a data output. -/
def linkOrigin (tree : Snapshot) (socket : SnapshotSocket) (target : InputSocket) (origin : Nat) :
    Lower Unit := do
  match ← mapped? origin with
  | some (.output source) =>
    match ← linkConverted tree source target with
    | .ok () => return
    | .error e =>
      throw (.incompatibleLink (← Lower.socket tree origin).port.name socket.port.name e)
  | _ => return

/-- Visits the input sockets of a tree that data inputs stand for. -/
def forInputs (tree : Snapshot) (visit : SnapshotSocket → InputSocket → Lower Unit) : Lower Unit :=
  tree.sockets.toList.zipIdx.forM fun (socket, i) => do
    if socket.isInput then
      match ← mapped? i with
      | some (.input input) => visit socket input
      | _ => return

def linkInputs (tree : Snapshot) : Lower Unit :=
  forInputs tree fun socket input => socket.links.forM (linkOrigin tree socket input)

/-- The value of a port in a tree, or the value that stands in for one of another type. -/
def portValue (port : PortSpec) (expected : ValueType) : Value :=
  match port.defaultValue.map PortValue.toValue with
  | some value => if value.type = expected then value else expected.default
  | none => expected.default

/-- Gives constants to the data inputs of a tree that are not linked. -/
def insertConstants (tree : Snapshot) : Lower Unit :=
  forInputs tree fun socket input => do
    if ← look (DataGraphBuilder.isLinked · input) then return
    let value := portValue socket.port.toPortSpec (← look (Wiring.inputType · input))
    let owner ← lift (elementAt tree.nodes socket.node)
    let node ← insert tree (Builtin.constant value) (some owner)
    let output ← look (Wiring.outputSocket · node 0)
    match ← link output input with
    | .ok () => return
    | .error e => throw (.dataGraph e)

end Nodeflow.Lower
