import Nodeflow.Proofs.Snapshot.Links

/-!
# Faithful snapshots

As soon as the ports of a tree have identifiers of their own, its snapshot says everything about it
that it is meant to say, whatever the connections name. `Tree.linksAt` is read off the tree alone:
its ports are numbered in order, and a connection between two of them shows at both of its ends.
-/

namespace Nodeflow

namespace Tree

variable {t : Tree} {port : PortId} {c : Connection} {i : Nat}

/-- The place of a port among all ports, node by node, inputs before outputs. -/
def number? (t : Tree) (port : PortId) : Option Nat := t.portIds.idxOf? port

/-- Both ports of a connection are ports of the tree. -/
def knows (t : Tree) (c : Connection) : Bool :=
  t.portIds.contains c.source.port && t.portIds.contains c.target.port

/-- The other ends of a connection at a port. A connection of a port with itself has two. -/
def otherEnds (t : Tree) (port : PortId) (c : Connection) : List Nat :=
  (if c.source.port = port then (t.number? c.target.port).toList else []) ++
    if c.target.port = port then (t.number? c.source.port).toList else []

def linksAt (t : Tree) (port : PortId) : List Nat := t.connections.values.flatMap (t.otherEnds port)

theorem getElem?_of_number? (h : t.number? port = some i) : t.portIds[i]? = some port := by
  obtain ⟨hlt, hi, -⟩ := List.findIdx?_eq_some_iff_getElem.mp h
  rw [List.getElem?_eq_getElem hlt, eq_of_beq hi]

theorem number?_eq_none_iff : t.number? port = none ↔ port ∉ t.portIds := List.idxOf?_eq_none_iff

theorem knows_eq_false (h : t.knows c = false) : t.number? c.source.port = none ∨ t.number? c.target.port = none := by
  rw [number?_eq_none_iff, number?_eq_none_iff]
  rcases Bool.and_eq_false_iff.mp h with hs | hs
  · exact .inl (by simpa using hs)
  · exact .inr (by simpa using hs)

end Tree

namespace Snapshot

variable {t : Tree} {s : Snapshot} {n : Node} {node : SnapshotNode} {socket : SnapshotSocket} {port : PortId}
  {i j k : Nat}

/-! ## Positions -/

@[simp] theorem length_socketsFrom (first j : Nat) (ports : List Port) :
    (socketsFrom first j ports).length = ports.length := by
  simp [socketsFrom]

theorem getElem?_socketsFrom (first j k : Nat) (ports : List Port) : (socketsFrom first j ports)[k]? =
    ports[k]?.map fun p => { id := first + k, node := j, position := k, port := p } := by
  simp [socketsFrom, Function.comp_def]

/-- The sockets of each node say at which position they are. -/
def Positioned (s : Snapshot) : Prop :=
  ∀ ⦃j : Nat⦄ ⦃node : SnapshotNode⦄, s.nodes[j]? = some node → ∀ ⦃k i : Nat⦄,
    node.inputs[k]? = some i ∨ node.outputs[k]? = some i → s.sockets[i]?.map SnapshotSocket.position = some k

theorem getElem?_sockets_addNode (s : Snapshot) (n : Node) {e : SnapshotSocket} (h : s.sockets[i]? = some e) :
    (s.addNode n).sockets[i]? = some e := by
  have hlt := (Array.getElem?_eq_some_iff.mp h).1
  simp only [Snapshot.addNode]
  rw [Array.append_assoc, Array.getElem?_append_left hlt, h]

theorem position_addNode (s : Snapshot) (n : Node)
    (h : (copy j n s.sockets.size).inputs[k]? = some i ∨ (copy j n s.sockets.size).outputs[k]? = some i) :
    (s.addNode n).sockets[i]?.map SnapshotSocket.position = some k := by
  simp only [Snapshot.addNode]
  rcases h with h | h
  · obtain ⟨hlt, rfl⟩ := getElem?_copy_inputs h
    rw [Array.append_assoc, Array.getElem?_append_right (by omega), Nat.add_sub_cancel_left,
      Array.getElem?_append_left (by simpa using hlt), List.getElem?_toArray, getElem?_socketsFrom,
      List.getElem?_eq_getElem hlt]
    rfl
  · obtain ⟨hlt, rfl⟩ := getElem?_copy_outputs h
    have hsize : (s.sockets ++ (socketsFrom s.sockets.size s.nodes.size n.inputs).toArray).size =
        s.sockets.size + n.inputs.length := by simp
    rw [Array.getElem?_append_right (by omega), hsize, Nat.add_sub_cancel_left, List.getElem?_toArray,
      getElem?_socketsFrom, List.getElem?_eq_getElem hlt]
    rfl

theorem Positioned.addNode (h : s.Positioned) (n : Node) : (s.addNode n).Positioned := by
  intro j node hj k i hi
  rw [nodes_addNode, Array.getElem?_push] at hj
  split at hj
  · cases hj
    exact position_addNode s n hi
  · have hold := h hj hi
    obtain ⟨e, he, hk⟩ := Option.map_eq_some_iff.mp hold
    rw [getElem?_sockets_addNode s n he, Option.map_some, hk]

theorem positioned_foldl (nodes : List Node) (h : s.Positioned) : (nodes.foldl Snapshot.addNode s).Positioned := by
  induction nodes generalizing s with
  | nil => exact h
  | cons n nodes ih => exact ih (h.addNode n)

theorem positioned_ofTree (t : Tree) : (ofTree t).Positioned := by
  have hblank : (unlinked t).Positioned :=
    positioned_foldl t.nodes.values fun j node hj => by simp at hj
  intro j node hj k i hi
  rw [nodes_ofTree] at hj
  rw [getElem?_ofTree, Option.map_map]
  exact hblank hj hi

/-! ## Numbers -/

/-- The number of a socket is its place. -/
def NumbersSockets (s : Snapshot) : Prop :=
  ∀ ⦃i : Nat⦄ ⦃socket : SnapshotSocket⦄, s.sockets[i]? = some socket → socket.id = i

theorem NumbersSockets.addNode (h : s.NumbersSockets) (n : Node) : (s.addNode n).NumbersSockets := by
  intro i socket hi
  simp only [Snapshot.addNode, Array.append_assoc] at hi
  by_cases hold : i < s.sockets.size
  · rw [Array.getElem?_append_left hold] at hi
    exact h hi
  · obtain ⟨k, rfl⟩ := Nat.exists_eq_add_of_le (Nat.le_of_not_lt hold)
    rw [Array.getElem?_append_right (by omega), Nat.add_sub_cancel_left] at hi
    by_cases hin : k < n.inputs.length
    · rw [Array.getElem?_append_left (by simpa using hin), List.getElem?_toArray, getElem?_socketsFrom] at hi
      obtain ⟨p, -, rfl⟩ := Option.map_eq_some_iff.mp hi
      rfl
    · rw [Array.getElem?_append_right (by simpa using hin), List.getElem?_toArray, getElem?_socketsFrom] at hi
      obtain ⟨p, -, rfl⟩ := Option.map_eq_some_iff.mp hi
      simp only [List.size_toArray, length_socketsFrom]
      omega

theorem numbersSockets_foldl (nodes : List Node) (h : s.NumbersSockets) :
    (nodes.foldl Snapshot.addNode s).NumbersSockets := by
  induction nodes generalizing s with
  | nil => exact h
  | cons n nodes ih => exact ih (h.addNode n)

theorem numbersSockets_ofTree (t : Tree) : (ofTree t).NumbersSockets := by
  have hblank : (unlinked t).NumbersSockets :=
    numbersSockets_foldl t.nodes.values fun i socket hi => by simp at hi
  intro i socket hi
  rw [getElem?_ofTree, Option.map_eq_some_iff] at hi
  obtain ⟨blank, hfirst, rfl⟩ := hi
  have hid : blank.id = i := hblank hfirst
  exact hid

theorem numbers_foldl (nodes : List Node) (h : s.nodes.toList.flatMap (fun node => node.inputs ++ node.outputs) =
    List.range s.sockets.size) : (nodes.foldl Snapshot.addNode s).nodes.toList.flatMap
      (fun node => node.inputs ++ node.outputs) = List.range (nodes.foldl Snapshot.addNode s).sockets.size := by
  induction nodes generalizing s with
  | nil => exact h
  | cons n nodes ih =>
      refine ih ?_
      have hsize : (s.addNode n).sockets.size = s.sockets.size + (n.inputs.length + n.outputs.length) := by
        rw [← length_owners, owners_addNode, List.length_append, length_owners, List.length_map, Node.ports,
          List.length_append]
      rw [nodes_addNode, Array.toList_push, List.flatMap_append, h, hsize, List.flatMap_singleton, copy,
        List.range'_append_1, List.range_eq_range', List.range_eq_range', ← List.range'_append_1 (s := 0), Nat.zero_add]

theorem numbers_ofTree (t : Tree) : (ofTree t).nodes.toList.flatMap (fun node => node.inputs ++ node.outputs) =
    List.range (ofTree t).sockets.size := by
  rw [nodes_ofTree, ← length_owners, owners_ofTree, length_owners]
  exact numbers_foldl t.nodes.values rfl

theorem socketOf?_eq_number? (h : t.portIds.Nodup) (port : PortId) : (ofTree t).socketOf? port = t.number? port := by
  cases hn : t.number? port with
  | none =>
      refine Option.eq_none_iff_forall_ne_some.mpr fun i hi => ?_
      obtain ⟨socket, hs, rfl⟩ := exists_of_socketBefore? hi
      refine Tree.number?_eq_none_iff.mp hn ?_
      rw [← map_id_sockets]
      exact List.mem_map_of_mem (Array.mem_toList_iff.mpr (Array.mem_of_getElem? hs))
  | some i =>
      have hi := Tree.getElem?_of_number? hn
      rw [← map_id_sockets, List.getElem?_map, Array.getElem?_toList, Option.map_eq_some_iff] at hi
      obtain ⟨socket, hs, rfl⟩ := hi
      exact socketOf?_eq h hs

/-! ## Links -/

theorem ends_eq_number? (h : t.portIds.Nodup) (c : PortId × PortId) : (ofTree t).ends c =
    (t.number? c.1).bind fun a => (t.number? c.2).map fun b => (a, b) := by
  rw [ends, socketOf?_eq_number? h, socketOf?_eq_number? h]

/-- What a connection adds to the links of a socket is its other ends at the port of the socket. -/
theorem flatMap_added_ends (h : t.portIds.Nodup) (hi : t.number? port = some i) (c : Connection) :
    ((ofTree t).ends (c.source.port, c.target.port)).toList.flatMap (added i) = t.otherEnds port c := by
  have hat {q : PortId} {a : Nat} (hq : t.number? q = some a) : a = i ↔ q = port := by
    refine ⟨fun ha => ?_, fun hport => ?_⟩
    · subst ha
      exact Option.some.inj ((Tree.getElem?_of_number? hq).symm.trans (Tree.getElem?_of_number? hi))
    · subst hport
      exact Option.some.inj (hq.symm.trans hi)
  have hknown {q : PortId} (hq : t.number? q = none) : q ≠ port := by
    rintro rfl
    rw [hi] at hq
    cases hq
  rw [ends_eq_number? h, Tree.otherEnds]
  cases ha : t.number? c.source.port with
  | none => simp [hknown ha]
  | some a =>
      cases hb : t.number? c.target.port with
      | none => simp [hknown hb]
      | some b => simp [added, hat ha, hat hb]

theorem links_eq_linksAt (h : t.portIds.Nodup) (hs : (ofTree t).sockets[i]? = some socket) :
    socket.links = t.linksAt socket.port.id := by
  have hi : t.number? socket.port.id = some i := by
    rw [← socketOf?_eq_number? h, socketOf?_eq h hs]
  rw [links_eq hs, List.filterMap_eq_flatMap_toList, List.flatMap_assoc]
  exact List.flatMap_congr fun c _ => flatMap_added_ends h hi c

theorem count_added (a b : Nat) (link : Nat × Nat) : (added a link).count b =
    (if link.1 = a ∧ link.2 = b then 1 else 0) + if link.1 = b ∧ link.2 = a then 1 else 0 := by
  rw [added, List.count_append]
  congr 1
  · by_cases h : link.1 = a <;> simp [h, List.count_singleton]
  · by_cases h : link.2 = a <;> simp [h, List.count_singleton]

theorem count_links {a b : Nat} {x y : SnapshotSocket} (ha : (ofTree t).sockets[a]? = some x)
    (hb : (ofTree t).sockets[b]? = some y) : x.links.count b = y.links.count a := by
  rw [links_eq ha, links_eq hb, List.count_flatMap, List.count_flatMap]
  refine congrArg List.sum (List.map_congr_left fun link _ => ?_)
  exact (count_added a b link).trans ((Nat.add_comm _ _).trans (count_added b a link).symm)

/-! ## Faithfulness -/

attribute [ext] Snapshot

/-- The socket that a port of a node gets under a number. -/
def socketFor (t : Tree) (j i k : Nat) (p : Port) : SnapshotSocket where
  id := i
  node := j
  position := k
  port := p
  links := t.linksAt p.id

/-- A snapshot agrees with a tree, in all of its views. -/
structure Faithful (s : Snapshot) (t : Tree) : Prop where
  name : s.name = t.name
  nodes : s.nodes.toList.map (fun node => (node.idname, node.name)) = t.nodes.values.map fun n => (n.idname, n.name)
  /-- The number of a node is its place. -/
  node_ids : s.NumbersNodes
  /-- The number of a socket is its place. -/
  socket_ids : s.NumbersSockets
  numbers : s.nodes.toList.flatMap (fun node => node.inputs ++ node.outputs) = List.range s.sockets.size
  sockets : ∀ ⦃j : Nat⦄ ⦃n : Node⦄ ⦃node : SnapshotNode⦄, t.nodes.values[j]? = some n → s.nodes[j]? = some node →
    List.Forall₂ (fun i port => s.sockets[i]? = some (socketFor t j i port.2 port.1)) node.inputs n.inputs.zipIdx ∧
      List.Forall₂ (fun i port => s.sockets[i]? = some (socketFor t j i port.2 port.1)) node.outputs n.outputs.zipIdx
  count_links : ∀ ⦃a b : Nat⦄ ⦃x y : SnapshotSocket⦄, s.sockets[a]? = some x → s.sockets[b]? = some y →
    x.links.count b = y.links.count a
  nodesOfType : ∀ idname : String, (s.nodesOfType idname).Pairwise (· < ·) ∧
    ∀ j, j ∈ s.nodesOfType idname ↔ ∃ n, t.nodes.values[j]? = some n ∧ n.idname = idname

theorem forall₂_socketFor (h : t.portIds.Nodup) {numbers : List Nat} {ports : List Port}
    (hmade : List.Forall₂ ((ofTree t).MadeFrom j) numbers ports)
    (hpos : ∀ ⦃k i : Nat⦄, numbers[k]? = some i → (ofTree t).sockets[i]?.map SnapshotSocket.position = some k) :
    List.Forall₂ (fun i port => (ofTree t).sockets[i]? = some (socketFor t j i port.2 port.1)) numbers
      ports.zipIdx := by
  obtain ⟨hlength, hmade⟩ := forall₂_iff_getElem?.mp hmade
  refine forall₂_iff_getElem?.mpr ⟨by rw [hlength, List.length_zipIdx], fun {k i} hk => ?_⟩
  obtain ⟨p, hp, socket, hs, hnode, hport⟩ := hmade hk
  have hposition := hpos hk
  rw [hs, Option.map_some, Option.some.injEq] at hposition
  have hsocket : socket = socketFor t j i k p := by
    rw [socketFor, ← numbersSockets_ofTree t hs, ← hnode, ← hposition, ← hport, ← links_eq_linksAt h hs]
  exact ⟨(p, k), by simp [hp], hs.trans (congrArg some hsocket)⟩

theorem name_addLinks (s : Snapshot) (links : List (PortId × PortId)) : (s.addLinks links).2.name = s.name := by
  induction links generalizing s with
  | nil => rfl
  | cons c links ih =>
      obtain ⟨source, target⟩ := c
      rw [addLinks, ih, addLink_snd]
      cases s.ends (source, target) <;> rfl

theorem name_foldl (nodes : List Node) (s : Snapshot) : (nodes.foldl addNode s).name = s.name := by
  induction nodes generalizing s with
  | nil => rfl
  | cons n nodes ih => exact ih (s.addNode n)

theorem name_ofTree (t : Tree) : (ofTree t).name = t.name := (name_addLinks ..).trans (name_foldl ..)

theorem ends_eq_none (h : t.portIds.Nodup) {c : Connection} (hc : t.knows c = false) :
    (ofTree t).ends (c.source.port, c.target.port) = none := by
  rw [ends_eq_number? h]
  rcases Tree.knows_eq_false hc with hs | ht
  · rw [hs]
    rfl
  · rw [ht]
    cases t.number? c.source.port <;> rfl

theorem ofTree_filter_knows (h : t.portIds.Nodup) :
    ofTree { t with connections := t.connections.filter t.knows } = ofTree t := by
  have howners : (ofTree { t with connections := t.connections.filter t.knows }).owners = (ofTree t).owners :=
    (owners_ofTree _).trans (owners_ofTree t).symm
  have hends := funext (ends_of_eq howners)
  refine Snapshot.ext ((name_ofTree _).trans (name_ofTree t).symm) ((nodes_ofTree _).trans (nodes_ofTree t).symm)
    (Array.ext_getElem? fun i => ?_)
  have hsame : ((t.connections.filter t.knows).values.filterMap fun c => (ofTree t).ends (c.source.port, c.target.port)) =
      t.connections.values.filterMap fun c => (ofTree t).ends (c.source.port, c.target.port) := by
    rw [OrderedMap.values_filter, List.filterMap_filter]
    refine List.filterMap_congr fun c _ => ?_
    cases hc : t.knows c with
    | false => exact (ends_eq_none h hc).symm
    | true => rfl
  rw [getElem?_ofTree, getElem?_ofTree t, hends, hsame]
  rfl

/-- If all ports of a tree have different identifiers, then its snapshot is faithful, and only the connections
between known ports show in it. -/
theorem faithful_ofTree (h : t.portIds.Nodup) : (ofTree t).Faithful t ∧
    ofTree { t with connections := t.connections.filter t.knows } = ofTree t := by
  refine ⟨⟨name_ofTree t, map_nodes_ofTree t fun _ _ _ => rfl,
    (copies_ofTree t).numbersNodes, numbersSockets_ofTree t, numbers_ofTree t, fun j n node hn hnode => ?_,
    fun a b x y => count_links, fun idname => ⟨?_, fun j => mem_nodesOfType_ofTree t⟩⟩, ofTree_filter_knows h⟩
  · obtain ⟨-, hins, houts⟩ := (copies_ofTree t).sockets hn hnode
    exact ⟨forall₂_socketFor h hins fun k i hi => positioned_ofTree t hnode (.inl hi),
      forall₂_socketFor h houts fun k i hi => positioned_ofTree t hnode (.inr hi)⟩
  · rw [(copies_ofTree t).numbersNodes.nodesOfType_eq]
    exact List.Pairwise.filter _ List.pairwise_lt_range

/-- A connection between two ports, given by their numbers. -/
def wire (number source target : Nat) : ConnectionId × Connection :=
  (Supply.connectionId number,
    { id := Supply.connectionId number
      source := { node := Supply.nodeId 0, port := Supply.portId source }
      target := { node := Supply.nodeId 0, port := Supply.portId target } })

/-- Two sums with an unknown port, a repeated connection and one of a port with itself. -/
def tangle : Tree where
  name := "tangle"
  nodes := .ofList (([0, 1].map Tree.sumNode).map fun n => (n.id, n))
  connections := .ofList [wire 0 2 3, wire 1 2 9, wire 2 5 5, wire 3 2 3]

theorem faithful_tangle : tangle.portIds.Nodup ∧ (ofTree tangle).Faithful tangle ∧
    ofTree { tangle with connections := tangle.connections.filter tangle.knows } = ofTree tangle ∧
    (ofTree tangle).sockets.toList.map SnapshotSocket.links = [[], [], [3, 3], [2, 2], [], [5, 5]] ∧
    (ofTree tangle).nodesOfType (Tree.sumNode 0).idname = [0, 1] := by
  have h : tangle.portIds.Nodup := by decide +kernel
  exact ⟨h, (faithful_ofTree h).1, (faithful_ofTree h).2, by decide +kernel, by decide +kernel⟩

end Snapshot

end Nodeflow
