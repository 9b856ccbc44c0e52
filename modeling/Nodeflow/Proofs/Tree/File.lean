import Nodeflow.Tree.File
import Nodeflow.Proofs.Text.Digits
import Nodeflow.Proofs.Ron.Blocks
import Nodeflow.Proofs.Ron.Scalar
import Nodeflow.Proofs.Tree.Editing

/-!
# Trees that read back

What is written for an identifier, a value, a port, a node or a connection is read as the same one,
and a tree is read as the same tree if no key comes twice in its maps. Edits keep the keys distinct,
whatever identifiers they bring along, so a tree that was made, changed or read before is not changed
by being written and read.
-/

namespace Nodeflow.Tree

open Ron Ron.Reader

variable {α β : Type} {read : Reader α} {text : String} {t : Tree}

theorem reads_uuid (id : Uuid) : Reads uuid (Text.quote id.toText) id := by
  obtain ⟨hbegins, htakes⟩ := reads_quoted false id.toText
  refine ⟨hbegins, fun rest hrest => ?_⟩
  unfold uuid
  rw [Text.quote, bind_of_eq (htakes rest hrest), Uuid.ofText?_toText]
  rfl

theorem reads_nodeId (id : NodeId) : Reads (nodeId {}) (idText id.uuid) id :=
  (reads_wrapped "NodeId" (reads_uuid id.uuid)).map NodeId.mk

theorem reads_portId (id : PortId) : Reads (portId {}) (idText id.uuid) id :=
  (reads_wrapped "PortId" (reads_uuid id.uuid)).map PortId.mk

theorem reads_connectionId (id : ConnectionId) : Reads (connectionId {}) (idText id.uuid) id :=
  (reads_wrapped "ConnectionId" (reads_uuid id.uuid)).map ConnectionId.mk

theorem reads_direction (d : Direction) : Reads direction (directionText d) d := by
  cases d <;> exact reads_variant (by decide) rfl

theorem reads_portType (t : PortType) : Reads portType t.name t := by
  cases t <;> exact reads_variant (by decide) rfl

theorem reads_vector (x y z : Binary32) :
    Reads (tuple {} vectorParts) (tupleText ([x, y, z].map FloatLayout.file.write)) (.vector3 x y z) := by
  refine reads_tuple fun rest => ?_
  have hx := reads_float x
  have hy := reads_float y
  have hz := reads_float z
  have htext : (", ".intercalate ([x, y, z].map FloatLayout.file.write)).toList ++ ')' :: rest =
      (FloatLayout.file.write x).toList ++ ',' :: ' ' :: ((FloatLayout.file.write y).toList ++ ',' :: ' ' ::
        ((FloatLayout.file.write z).toList ++ ')' :: rest)) := by simp
  unfold vectorParts
  rw [htext, bind_of_eq (hx.partOf_comma hy _), bind_of_eq (hy.partOf_comma hz _), bind_of_eq (hz.partOf_last rest)]
  rfl

theorem reads_color (r g b a : Binary32) :
    Reads (tuple {} colorParts) (tupleText ([r, g, b, a].map FloatLayout.file.write)) (.color r g b a) := by
  refine reads_tuple fun rest => ?_
  have hr := reads_float r
  have hg := reads_float g
  have hb := reads_float b
  have ha := reads_float a
  have htext : (", ".intercalate ([r, g, b, a].map FloatLayout.file.write)).toList ++ ')' :: rest =
      (FloatLayout.file.write r).toList ++ ',' :: ' ' :: ((FloatLayout.file.write g).toList ++ ',' :: ' ' ::
        ((FloatLayout.file.write b).toList ++ ',' :: ' ' :: ((FloatLayout.file.write a).toList ++ ')' :: rest))) := by
    simp
  unfold colorParts
  rw [htext, bind_of_eq (hr.partOf_comma hg _), bind_of_eq (hg.partOf_comma hb _), bind_of_eq (hb.partOf_comma ha _),
    bind_of_eq (ha.partOf_last rest)]
  rfl

theorem reads_portValue (depth : Nat) (v : PortValue) : Reads (portValue {}) (portValueText depth v) v := by
  cases v with
  | bool b => exact reads_inVariant (by decide) rfl ((reads_bool b).map PortValue.bool)
  | int i => exact reads_inVariant (by decide) rfl ((reads_int32 i).map PortValue.int)
  | float x => exact reads_inVariant (by decide) rfl ((reads_float x).map PortValue.float)
  | vector3 x y z => exact reads_inVariant (by decide) rfl (reads_vector x y z)
  | color r g b a => exact reads_inVariant (by decide) rfl (reads_color r g b a)
  | string s => exact reads_inVariant (by decide) rfl ((reads_quoted true s).map PortValue.string)
  | floatList xs =>
      exact reads_inVariant (by decide) rfl ((reads_list depth fun x _ => reads_float x).map PortValue.floatList)

theorem reads_complete {finish : α → Option β} (v : α) {w : β} (h : Reads read text v) (hfinish : finish v = some w) :
    Reads (complete read finish) text w := by
  refine ⟨h.begins, fun rest hrest => ?_⟩
  unfold complete
  rw [bind_of_eq (h.takes rest hrest), hfinish]
  rfl

theorem exists_of_complete {finish : α → Option β} {chars rest : List Char} {w : β}
    (h : complete read finish chars = some (w, rest)) : ∃ v, finish v = some w := by
  obtain ⟨v, mid, -, h⟩ := bind_eq_some_iff.mp h
  cases hfinish : finish v with
  | none =>
      rw [hfinish] at h
      cases h
  | some w' =>
      rw [hfinish] at h
      cases h
      exact ⟨v, hfinish⟩

theorem reads_defaultValue (depth : Nat) (v : Option PortValue) :
    Reads (Reader.optional {} (portValue {})) (optionalText (v.map (portValueText depth))) v := by
  cases v with
  | none => exact reads_none (portValue {})
  | some v => exact reads_some (reads_portValue depth v)

theorem reads_port (depth : Nat) (p : Port) : Reads (port {}) (portText depth p) p := by
  refine reads_complete ⟨some p.id, some p.name, some p.direction, some p.type, some p.defaultValue, some p.required,
    some p.multiConnect⟩ (reads_record ?_ "Port" _ depth) rfl
  exact .cons (by decide) rfl ((reads_portId p.id).map _) <|
    .cons (by decide) rfl ((reads_quoted true p.name).map _) <|
    .cons (by decide) rfl ((reads_direction p.direction).map _) <|
    .cons (by decide) rfl ((reads_portType p.type).map _) <|
    .cons (by decide) rfl ((reads_defaultValue (depth + 1) p.defaultValue).map _) <|
    .cons (by decide) rfl ((reads_bool p.required).map _) <|
    .cons (by decide) rfl ((reads_bool p.multiConnect).map _) .nil

theorem reads_node (depth : Nat) (n : Node) : Reads (nodeRecord {}) (nodeText depth n) n := by
  have hports : ∀ ps : List Port, Reads (list (port {})) (listBlock (depth + 1) (ps.map (portText (depth + 2)))) ps :=
    fun ps => reads_list (depth + 1) fun p _ => reads_port (depth + 2) p
  refine reads_complete ⟨some n.id, some n.idname, some n.name, some n.inputs, some n.outputs⟩
    (reads_record ?_ "Node" _ depth) rfl
  exact .cons (by decide) rfl ((reads_nodeId n.id).map _) <|
    .cons (by decide) rfl ((reads_quoted true n.idname).map _) <|
    .cons (by decide) rfl ((reads_quoted true n.name).map _) <|
    .cons (by decide) rfl ((hports n.inputs).map _) <|
    .cons (by decide) rfl ((hports n.outputs).map _) .nil

theorem reads_endpoint (depth : Nat) (e : Endpoint) : Reads (endpoint {}) (endpointText depth e) e := by
  refine reads_complete ⟨some e.node, some e.port⟩ (reads_record ?_ "Endpoint" _ depth) rfl
  exact .cons (by decide) rfl ((reads_nodeId e.node).map _) <|
    .cons (by decide) rfl ((reads_portId e.port).map _) .nil

theorem reads_connection (depth : Nat) (c : Connection) : Reads (connection {}) (connectionText depth c) c := by
  refine reads_complete ⟨some c.id, some c.source, some c.target⟩ (reads_record ?_ "Connection" _ depth) rfl
  exact .cons (by decide) rfl ((reads_connectionId c.id).map _) <|
    .cons (by decide) rfl ((reads_endpoint (depth + 1) c.source).map _) <|
    .cons (by decide) rfl ((reads_endpoint (depth + 1) c.target).map _) .nil

theorem reads_tree (t : Tree) (hnodes : t.nodes.keys.Nodup) (hconnections : t.connections.keys.Nodup) :
    Reads (tree {}) t.toText t := by
  have hn := reads_map t.nodes.entries.toList (fun id => idText id.uuid) (nodeText 2) 1
    fun entry _ => ⟨reads_nodeId entry.1, reads_node 2 entry.2⟩
  have hc := reads_map t.connections.entries.toList (fun id => idText id.uuid) (connectionText 2) 1
    fun entry _ => ⟨reads_connectionId entry.1, reads_connection 2 entry.2⟩
  refine reads_complete ⟨some t.name, some t.nodes.entries.toList, some t.connections.entries.toList⟩
    (reads_record ?_ "Graph" _ 0) ?_
  · exact .cons (by decide) rfl ((reads_quoted true t.name).map _) <|
      .cons (by decide) rfl (hn.map _) <|
      .cons (by decide) rfl (hc.map _) .nil
  · change some (⟨t.name, .ofList t.nodes.entries.toList, .ofList t.connections.entries.toList⟩ : Tree) = some t
    rw [OrderedMap.ofList_entries hnodes, OrderedMap.ofList_entries hconnections]

/-! ## Trees with distinct keys -/

structure DistinctKeys (t : Tree) : Prop where
  nodes : t.nodes.keys.Nodup
  connections : t.connections.keys.Nodup

theorem DistinctKeys.new (name : String) : ({ name } : Tree).DistinctKeys := ⟨List.nodup_nil, List.nodup_nil⟩

theorem DistinctKeys.connect (h : t.DistinctKeys) {id : ConnectionId} {source target : Endpoint} {t' : Tree}
    (hok : t.connect id source target = .ok t') : t'.DistinctKeys := by
  -- an identifier that is there already keeps its place among the keys
  obtain ⟨-, -, -, -, -, -, -, -, -, -, -, -, -, rfl⟩ := connect_eq_ok_iff.mp hok
  exact ⟨h.nodes, OrderedMap.nodup_insert_of_nodup h.connections id _⟩

/-- An edit keeps the keys distinct, also where an identifier that it brings along is used already. -/
theorem DistinctKeys.after (h : t.DistinctKeys) (e : Edit) : (t.after e).DistinctKeys := by
  have houtcome := t.outcome_after e
  generalize t.after e = t' at houtcome ⊢
  cases houtcome with
  | refused => exact h
  | addNode n => exact ⟨OrderedMap.nodup_insert_of_nodup h.nodes n.id n, h.connections⟩
  | removeNode id => exact ⟨OrderedMap.nodup_erase h.nodes id, OrderedMap.nodup_filter h.connections _⟩
  | connect hok => exact h.connect hok
  | connectAt _ _ hok => exact h.connect hok
  | disconnect id => exact ⟨h.nodes, OrderedMap.nodup_erase h.connections id⟩
  | insertPort node => exact ⟨OrderedMap.nodup_modify h.nodes node _, h.connections⟩
  | setDefault node => exact ⟨OrderedMap.nodup_modify h.nodes node _, h.connections⟩

theorem DistinctKeys.of_text (h : ofText? text = some t) : t.DistinctKeys := by
  obtain ⟨x, before, after, hread⟩ := exists_of_whole h
  obtain ⟨parts, hfinish⟩ := exists_of_complete hread
  obtain ⟨name, -, hfinish⟩ := Option.bind_eq_some_iff.mp hfinish
  obtain ⟨nodes, -, hfinish⟩ := Option.bind_eq_some_iff.mp hfinish
  obtain ⟨connections, -, hfinish⟩ := Option.bind_eq_some_iff.mp hfinish
  cases hfinish
  exact ⟨OrderedMap.nodup_ofList nodes, OrderedMap.nodup_ofList connections⟩

theorem DistinctKeys.ofText?_toText (h : t.DistinctKeys) : ofText? t.toText = some t :=
  whole_of_reads (reads_tree t h.nodes h.connections)

/-! ## Trees that are changed -/

/-- The trees that come about by edits and other changes, whatever identifiers the changes bring along. -/
inductive Changed : Tree → Prop
  | new (name : String) : Changed { name }
  | read {text : String} {t : Tree} (h : ofText? text = some t) : Changed t
  | edit {t : Tree} (h : Changed t) (e : Edit) : Changed (t.after e)
  | modifyNode {t : Tree} (h : Changed t) (id : NodeId) (change : Node → Node) : Changed (t.modifyNode id change)
  | rename {t : Tree} (h : Changed t) (name : String) : Changed { t with name }

theorem Changed.distinctKeys (h : Changed t) : t.DistinctKeys := by
  induction h with
  | new name => exact .new name
  | read h => exact .of_text h
  | edit h e ih => exact ih.after e
  | modifyNode h id change ih => exact ⟨OrderedMap.nodup_modify ih.nodes id change, ih.connections⟩
  | rename h name ih => exact ⟨ih.nodes, ih.connections⟩

/-- A tree is read back from its text, down to its last default value. -/
theorem changed_reads_back (h : Changed t) : ofText? t.toText = some t := h.distinctKeys.ofText?_toText

/-- A sum with a name and a default value that take care to write. -/
def oddSum : Tree :=
  ((({ name := "Sum \u200B\"of\"\n\\ nothing" } : Tree).after (.addNode (sumNode 0))).after
    (.setDefault (Supply.nodeId 0) 0 (some (.floatList [.nan true, .negativeZero, .number true .infinity])))).modifyNode
      (Supply.nodeId 0) fun n => { n with name := "'" }

theorem changed_reads_back_oddSum : Changed oddSum ∧ (oddSum.nodes.values.map Node.name) = ["'"] ∧
    ofText? oddSum.toText = some oddSum := by
  have hchanged : Changed oddSum := (((Changed.new _).edit _).edit _).modifyNode _ _
  exact ⟨hchanged, by decide +kernel, changed_reads_back hchanged⟩

end Nodeflow.Tree
