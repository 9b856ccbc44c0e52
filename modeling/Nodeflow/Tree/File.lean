import Nodeflow.Tree.Basic
import Nodeflow.Ron.Record
import Nodeflow.Ron.Writing
import Nodeflow.Decimal.Layout

/-!
# Trees as text

Trees are kept in the object notation. Reading makes no checks beyond the form: keys may differ from
the identifiers of what they stand for, and connections may name anything. Where a key comes twice
the last value counts, in the place of the first.
-/

namespace Nodeflow

namespace Tree

open Ron Ron.Reader

/-! ## Writing -/

def idText (id : Uuid) : String := wrappedText (Text.quote id.toText)

def directionText : Direction → String
  | .input => "Input"
  | .output => "Output"

def portValueText (depth : Nat) : PortValue → String
  | .bool b => variantText "Bool" (boolText b)
  | .int i => variantText "Int" (toString i.toInt)
  | .float x => variantText "Float" (FloatLayout.file.write x)
  | .vector3 x y z => variantText "Vector3" (tupleText ([x, y, z].map FloatLayout.file.write))
  | .color r g b a => variantText "Color" (tupleText ([r, g, b, a].map FloatLayout.file.write))
  | .string s => variantText "String" (Text.quoteInFile s)
  | .floatList xs => variantText "FloatList" (listBlock depth (xs.map FloatLayout.file.write))

def portText (depth : Nat) (p : Port) : String :=
  recordBlock depth
    [("id", idText p.id.uuid),
      ("name", Text.quoteInFile p.name),
      ("direction", directionText p.direction),
      ("port_type", p.type.name),
      ("default_value", optionalText (p.defaultValue.map (portValueText (depth + 1)))),
      ("required", boolText p.required),
      ("multi_connect", boolText p.multiConnect)]

def nodeText (depth : Nat) (n : Node) : String :=
  let ports (ps : List Port) := listBlock (depth + 1) (ps.map (portText (depth + 2)))
  recordBlock depth
    [("id", idText n.id.uuid),
      ("node_type", Text.quoteInFile n.idname),
      ("name", Text.quoteInFile n.name),
      ("inputs", ports n.inputs),
      ("outputs", ports n.outputs)]

def endpointText (depth : Nat) (e : Endpoint) : String :=
  recordBlock depth [("node", idText e.node.uuid), ("port", idText e.port.uuid)]

def connectionText (depth : Nat) (c : Connection) : String :=
  recordBlock depth
    [("id", idText c.id.uuid),
      ("from", endpointText (depth + 1) c.source),
      ("to", endpointText (depth + 1) c.target)]

def toText (t : Tree) : String :=
  recordBlock 0
    [("name", Text.quoteInFile t.name),
      ("nodes", mapBlock 1 (t.nodes.entries.toList.map fun (id, n) =>
        (idText id.uuid, nodeText 2 n))),
      ("connections", mapBlock 1 (t.connections.entries.toList.map fun (id, c) =>
        (idText id.uuid, connectionText 2 c)))]

/-! ## Reading -/

/-- An identifier in quotes. -/
def uuid : Reader Uuid := do
  match Uuid.ofText? (← text) with
  | some id => return id
  | none => failure

def nodeId (x : Extensions) : Reader NodeId := .mk <$> wrapped x "NodeId" uuid

def portId (x : Extensions) : Reader PortId := .mk <$> wrapped x "PortId" uuid

def connectionId (x : Extensions) : Reader ConnectionId := .mk <$> wrapped x "ConnectionId" uuid

def direction : Reader Direction :=
  variant ([Direction.input, .output].map fun d => (directionText d, d))

def portType : Reader PortType := variant (PortType.all.map fun t => (t.name, t))

def vectorParts : Reader PortValue := do
  let x ← partOf float false
  let y ← partOf float false
  return .vector3 x y (← partOf float true)

def colorParts : Reader PortValue := do
  let r ← partOf float false
  let g ← partOf float false
  let b ← partOf float false
  return .color r g b (← partOf float true)

def portValue (x : Extensions) : Reader PortValue := do
  let value ← variant
    [("Bool", PortValue.bool <$> bool),
      ("Int", .int <$> int32),
      ("Float", .float <$> float),
      ("Vector3", tuple x vectorParts),
      ("Color", tuple x colorParts),
      ("String", .string <$> text),
      ("FloatList", .floatList <$> list float)]
  inVariant value

/-- What has been read of a port. -/
structure PortParts where
  id : Option PortId := none
  name : Option String := none
  direction : Option Direction := none
  type : Option PortType := none
  defaultValue : Option (Option PortValue) := none
  required : Option Bool := none
  multiConnect : Option Bool := none

def PortParts.field (x : Extensions) (p : PortParts) : String → Option (Reader PortParts)
  | "id" => some (once p.id (fun v => { p with id := some v }) (portId x))
  | "name" => some (once p.name (fun v => { p with name := some v }) text)
  | "direction" => some (once p.direction (fun v => { p with direction := some v }) Tree.direction)
  | "port_type" => some (once p.type (fun v => { p with type := some v }) portType)
  | "default_value" =>
    some (once p.defaultValue (fun v => { p with defaultValue := some v })
      (optional x (portValue x)))
  | "required" => some (once p.required (fun v => { p with required := some v }) bool)
  | "multi_connect" => some (once p.multiConnect (fun v => { p with multiConnect := some v }) bool)
  | _ => none

/-- The port of which all parts have been read; a default value may be left out. -/
def PortParts.port? (p : PortParts) : Option Port := do
  return {
    id := ← p.id
    name := ← p.name
    direction := ← p.direction
    type := ← p.type
    defaultValue := p.defaultValue.getD none
    required := ← p.required
    multiConnect := ← p.multiConnect }

/-- What a reader finds, if it is complete. -/
def complete {α β : Type} (read : Reader α) (finish : α → Option β) : Reader β := do
  match finish (← read) with
  | some v => return v
  | none => failure

def port (x : Extensions) : Reader Port :=
  complete (record x (levels - 10) "Port" (PortParts.field x) {}) PortParts.port?

structure NodeParts where
  id : Option NodeId := none
  idname : Option String := none
  name : Option String := none
  inputs : Option (List Port) := none
  outputs : Option (List Port) := none

def NodeParts.field (x : Extensions) (n : NodeParts) : String → Option (Reader NodeParts)
  | "id" => some (once n.id (fun v => { n with id := some v }) (nodeId x))
  | "node_type" => some (once n.idname (fun v => { n with idname := some v }) text)
  | "name" => some (once n.name (fun v => { n with name := some v }) text)
  | "inputs" => some (once n.inputs (fun v => { n with inputs := some v }) (list (port x)))
  | "outputs" => some (once n.outputs (fun v => { n with outputs := some v }) (list (port x)))
  | _ => none

def NodeParts.node? (n : NodeParts) : Option Node := do
  return ⟨← n.id, ← n.idname, ← n.name, ← n.inputs, ← n.outputs⟩

def nodeRecord (x : Extensions) : Reader Node :=
  complete (record x (levels - 6) "Node" (NodeParts.field x) {}) NodeParts.node?

structure EndpointParts where
  node : Option NodeId := none
  port : Option PortId := none

def EndpointParts.field (x : Extensions) (e : EndpointParts) :
    String → Option (Reader EndpointParts)
  | "node" => some (once e.node (fun v => { e with node := some v }) (nodeId x))
  | "port" => some (once e.port (fun v => { e with port := some v }) (portId x))
  | _ => none

def endpoint (x : Extensions) : Reader Endpoint :=
  complete (record x (levels - 8) "Endpoint" (EndpointParts.field x) {}) fun e => do
    return ⟨← e.node, ← e.port⟩

structure ConnectionParts where
  id : Option ConnectionId := none
  source : Option Endpoint := none
  target : Option Endpoint := none

def ConnectionParts.field (x : Extensions) (c : ConnectionParts) :
    String → Option (Reader ConnectionParts)
  | "id" => some (once c.id (fun v => { c with id := some v }) (connectionId x))
  | "from" => some (once c.source (fun v => { c with source := some v }) (endpoint x))
  | "to" => some (once c.target (fun v => { c with target := some v }) (endpoint x))
  | _ => none

def connection (x : Extensions) : Reader Connection :=
  complete (record x (levels - 6) "Connection" (ConnectionParts.field x) {}) fun c => do
    return ⟨← c.id, ← c.source, ← c.target⟩

structure Parts where
  name : Option String := none
  nodes : Option (List (NodeId × Node)) := none
  connections : Option (List (ConnectionId × Connection)) := none

def Parts.field (x : Extensions) (t : Parts) : String → Option (Reader Parts)
  | "name" => some (once t.name (fun v => { t with name := some v }) text)
  | "nodes" =>
    some (once t.nodes (fun v => { t with nodes := some v }) (map (nodeId x) (nodeRecord x)))
  | "connections" =>
    some (once t.connections (fun v => { t with connections := some v })
      (map (connectionId x) (connection x)))
  | _ => none

def tree (x : Extensions) : Reader Tree :=
  complete (record x (levels - 2) "Graph" (Parts.field x) {}) fun t => do
    return ⟨← t.name, .ofList (← t.nodes), .ofList (← t.connections)⟩

/-- The tree that a text describes. -/
def ofText? (text : String) : Option Tree := whole tree text

end Tree

end Nodeflow
