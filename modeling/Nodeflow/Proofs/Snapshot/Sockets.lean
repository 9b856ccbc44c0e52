import Nodeflow.Proofs.Fault
import Nodeflow.Proofs.OrderedMap
import Nodeflow.Proofs.Snapshot.Copies

/-!
# The nodes of a snapshot and their sockets

A node of a snapshot has one socket for each port of the node that it was made from, under the same
position. The nodes of a type are found in order.
-/

namespace Nodeflow

namespace Snapshot

variable {tree : Snapshot} {nodes : List Node} {n : Node} {node : SnapshotNode} {i j k first : Nat}
  {socket : SnapshotSocket}

theorem getElem?_copy_inputs (h : (copy j n first).inputs[k]? = some i) : k < n.inputs.length ∧ i = first + k := by
  obtain ⟨hlt, he⟩ := List.getElem?_eq_some_iff.mp h
  simp only [copy, List.length_range', List.getElem_range'] at hlt he
  omega

theorem getElem?_copy_outputs (h : (copy j n first).outputs[k]? = some i) :
    k < n.outputs.length ∧ i = first + n.inputs.length + k := by
  obtain ⟨hlt, he⟩ := List.getElem?_eq_some_iff.mp h
  simp only [copy, List.length_range', List.getElem_range'] at hlt he
  omega

/-- A socket of a node was made from a port. -/
def MadeFrom (tree : Snapshot) (j i : Nat) (p : Port) : Prop :=
  ∃ socket, tree.sockets[i]? = some socket ∧ socket.node = j ∧ socket.port = p

theorem Copies.sockets (hc : tree.Copies nodes) (hn : nodes[j]? = some n) (hnode : tree.nodes[j]? = some node) :
    node.idname = n.idname ∧ List.Forall₂ (tree.MadeFrom j) node.inputs n.inputs ∧
      List.Forall₂ (tree.MadeFrom j) node.outputs n.outputs := by
  obtain ⟨first, hcopy, -, hports⟩ := hc.node hn
  rw [hnode, Option.some.injEq] at hcopy
  subst hcopy
  refine ⟨rfl, forall₂_iff_getElem?.mpr ⟨by simp [copy], fun {k i} hi => ?_⟩,
    forall₂_iff_getElem?.mpr ⟨by simp [copy], fun {k i} hi => ?_⟩⟩
  · obtain ⟨hlt, rfl⟩ := getElem?_copy_inputs hi
    have hk := List.getElem?_eq_getElem hlt
    exact ⟨_, hk, exists_socket (hports (by rw [Node.ports, List.getElem?_append_left hlt, hk]))⟩
  · obtain ⟨hlt, rfl⟩ := getElem?_copy_outputs hi
    have hk := List.getElem?_eq_getElem hlt
    refine ⟨_, hk, exists_socket ?_⟩
    rw [Nat.add_assoc]
    exact hports (by rw [Node.ports, List.getElem?_append_right (by omega), Nat.add_sub_cancel_left, hk])

/-- A socket has a place among the inputs or among the outputs of its node, and so has its port. -/
theorem Copies.exists_place (hc : tree.Copies nodes) (hs : tree.sockets[i]? = some socket) :
    ∃ n node, nodes[socket.node]? = some n ∧ tree.nodes[socket.node]? = some node ∧ ∃ k : Nat,
      node.inputs[k]? = some i ∧ n.inputs[k]? = some socket.port ∨
        node.outputs[k]? = some i ∧ n.outputs[k]? = some socket.port := by
  obtain ⟨n, first, k, hn, hnode, hk, rfl⟩ := hc.place (getElem?_owners hs)
  refine ⟨n, _, hn, hnode, ?_⟩
  have hlt := (List.getElem?_eq_some_iff.mp hk).1
  rw [Node.ports, List.length_append] at hlt
  by_cases hin : k < n.inputs.length
  · rw [Node.ports, List.getElem?_append_left hin] at hk
    exact ⟨k, .inl ⟨by simp [copy, hin], hk⟩⟩
  · rw [Node.ports, List.getElem?_append_right (by omega)] at hk
    refine ⟨k - n.inputs.length, .inr ⟨?_, hk⟩⟩
    rw [copy, List.getElem?_range' (by omega), Option.some.injEq]
    omega

/-! ## Nodes of a type -/

/-- The number of a node is its place. -/
def NumbersNodes (s : Snapshot) : Prop :=
  ∀ ⦃j : Nat⦄ ⦃node : SnapshotNode⦄, s.nodes[j]? = some node → node.id = j

theorem Copies.numbersNodes (hc : tree.Copies nodes) : tree.NumbersNodes := by
  intro j node hnode
  have hlt : j < nodes.length := hc.size ▸ (Array.getElem?_eq_some_iff.mp hnode).1
  obtain ⟨first, hcopy, -⟩ := hc.node (List.getElem?_eq_getElem hlt)
  rw [hnode, Option.some.injEq] at hcopy
  rw [hcopy, copy]

/-- A node that is entered in the index goes behind the nodes of its type. -/
theorem getD_get?_foldl_insert (nodes : List SnapshotNode) (index : OrderedMap String (List Nat)) (idname : String) :
    ((nodes.foldl (fun index node => index.insert node.idname ((index.get? node.idname).getD [] ++ [node.id]))
      index).get? idname).getD [] =
      (index.get? idname).getD [] ++ (nodes.filter fun node => node.idname == idname).map SnapshotNode.id := by
  induction nodes generalizing index with
  | nil => simp
  | cons node nodes ih =>
      rw [List.foldl_cons, ih, OrderedMap.get?_insert]
      by_cases hid : idname = node.idname
      · rw [List.filter_cons_of_pos (by simpa using hid.symm), if_pos hid, hid]
        simp
      · rw [List.filter_cons_of_neg (by simpa using Ne.symm hid), if_neg hid]

theorem nodesOfType_eq_map (s : Snapshot) (idname : String) :
    s.nodesOfType idname = (s.nodes.toList.filter fun node => node.idname == idname).map SnapshotNode.id := by
  rw [nodesOfType, byIdname, ← Array.foldl_toList, getD_get?_foldl_insert]
  rfl

theorem NumbersNodes.map_id (h : tree.NumbersNodes) :
    tree.nodes.toList.map SnapshotNode.id = List.range tree.nodes.size := by
  refine List.ext_getElem (by simp) fun j hj _ => ?_
  rw [List.getElem_map, List.getElem_range]
  exact h (Array.getElem?_toList ▸ List.getElem?_eq_getElem (by simpa using hj))

/-- What the index knows about a type are the places of the nodes of this type, in order. -/
theorem NumbersNodes.nodesOfType_eq (h : tree.NumbersNodes) (idname : String) : tree.nodesOfType idname =
    (List.range tree.nodes.size).filter fun j => tree.nodes[j]?.any fun node => node.idname == idname := by
  rw [nodesOfType_eq_map, ← h.map_id, List.filter_map]
  refine congrArg (List.map SnapshotNode.id) (List.filter_congr fun node hnode => ?_)
  obtain ⟨j, hj⟩ := List.mem_iff_getElem?.mp hnode
  rw [Array.getElem?_toList] at hj
  simp [h hj, hj]

theorem NumbersNodes.mem_nodesOfType_iff (h : tree.NumbersNodes) {idname : String} :
    j ∈ tree.nodesOfType idname ↔ ∃ node, tree.nodes[j]? = some node ∧ node.idname = idname := by
  simp only [h.nodesOfType_eq, List.mem_filter, List.mem_range]
  constructor
  · rintro ⟨hlt, hany⟩
    rw [Array.getElem?_eq_getElem hlt] at hany
    exact ⟨_, Array.getElem?_eq_getElem hlt, by simpa using hany⟩
  · rintro ⟨node, hn, rfl⟩
    exact ⟨(Array.getElem?_eq_some_iff.mp hn).1, by simp [hn]⟩

/-! ## Nodes in order -/

theorem map_nodes_ofTree (t : Tree) {α : Type} {f : SnapshotNode → α} {g : Node → α}
    (h : ∀ j n first, f (copy j n first) = g n) : (ofTree t).nodes.toList.map f = t.nodes.values.map g := by
  have hc := copies_ofTree t
  refine List.ext_getElem? fun j => ?_
  rw [List.getElem?_map, List.getElem?_map, Array.getElem?_toList]
  cases hn : t.nodes.values[j]? with
  | none =>
      have hle := List.getElem?_eq_none_iff.mp hn
      rw [Array.getElem?_eq_none (by rw [hc.size]; exact hle)]
      rfl
  | some n =>
      obtain ⟨first, hcopy, -⟩ := hc.node hn
      rw [hcopy, Option.map_some, Option.map_some, h]

theorem map_filter_range {α : Type} (xs : List α) (p : α → Bool) :
    ((List.range xs.length).filter fun i => xs[i]?.any p).map (xs[·]?) = (xs.filter p).map some := by
  induction xs with
  | nil => rfl
  | cons x xs ih =>
      rw [List.length_cons, List.range_succ_eq_map, List.filter_cons, List.filter_map, List.filter_cons]
      cases hp : p x <;> simpa [hp, Function.comp_def] using ih

theorem any_idname_ofTree (t : Tree) (idname : String) (j : Nat) :
    ((ofTree t).nodes[j]?.any fun node => node.idname == idname) =
      t.nodes.values[j]?.any fun n => n.idname == idname := by
  have hidnames := map_nodes_ofTree t (f := SnapshotNode.idname) (g := Node.idname) fun _ _ _ => rfl
  have hj := congrArg (fun names => names[j]?.any (· == idname)) hidnames
  simpa [Option.any_map, Function.comp_def] using hj

theorem mem_nodesOfType_ofTree (t : Tree) {idname : String} :
    j ∈ (ofTree t).nodesOfType idname ↔ ∃ n, t.nodes.values[j]? = some n ∧ n.idname = idname := by
  rw [(copies_ofTree t).numbersNodes.nodesOfType_eq, List.mem_filter, any_idname_ofTree,
    (copies_ofTree t).size, List.mem_range]
  cases hn : t.nodes.values[j]? with
  | none => simp
  | some n => simp [(List.getElem?_eq_some_iff.mp hn).1]

theorem map_nodesOfType_ofTree (t : Tree) (idname : String) :
    ((ofTree t).nodesOfType idname).map (t.nodes.values[·]?) = (t.nodesOfType idname).map some := by
  rw [(copies_ofTree t).numbersNodes.nodesOfType_eq, (copies_ofTree t).size,
    List.filter_congr fun j _ => any_idname_ofTree t idname j]
  exact map_filter_range t.nodes.values _

theorem length_nodesOfType_ofTree (t : Tree) (idname : String) :
    ((ofTree t).nodesOfType idname).length = (t.nodesOfType idname).length := by
  simpa using congrArg List.length (map_nodesOfType_ofTree t idname)

end Snapshot

end Nodeflow
