import Nodeflow.Snapshot
import Mathlib.Data.List.Basic

/-!
# Snapshots as copies

A snapshot lists the nodes of a tree in order, and their ports node by node. Links change neither.
-/

namespace Nodeflow

namespace Snapshot

variable {nodes : List Node} {s s' : Snapshot}

/-- The node and the port that each socket was made from. -/
def owners (s : Snapshot) : List (Nat × Port) :=
  s.sockets.toList.map fun socket => (socket.node, socket.port)

/-- A node with a number, whose sockets are numbered from some number on. -/
def copy (j : Nat) (n : Node) (first : Nat) : SnapshotNode where
  id := j
  idname := n.idname
  name := n.name
  inputs := List.range' first n.inputs.length
  outputs := List.range' (first + n.inputs.length) n.outputs.length

/-- The snapshot lists some nodes and their ports, in order. -/
structure Copies (s : Snapshot) (nodes : List Node) : Prop where
  size : s.nodes.size = nodes.length
  node : ∀ {j : Nat} {n : Node}, nodes[j]? = some n → ∃ first, s.nodes[j]? = some (copy j n first) ∧
    first + n.ports.length ≤ s.owners.length ∧
      ∀ {k : Nat} {p : Port}, n.ports[k]? = some p → s.owners[first + k]? = some (j, p)
  place : ∀ {i j : Nat} {p : Port}, s.owners[i]? = some (j, p) → ∃ n first k, nodes[j]? = some n ∧
    s.nodes[j]? = some (copy j n first) ∧ n.ports[k]? = some p ∧ i = first + k

theorem getElem?_owners {i : Nat} {socket : SnapshotSocket} (h : s.sockets[i]? = some socket) :
    s.owners[i]? = some (socket.node, socket.port) := by
  simp [owners, h]

theorem exists_socket {i j : Nat} {p : Port} (h : s.owners[i]? = some (j, p)) :
    ∃ socket, s.sockets[i]? = some socket ∧ socket.node = j ∧ socket.port = p := by
  simpa [owners] using h

theorem length_owners (s : Snapshot) : s.owners.length = s.sockets.size := by
  simp [owners]

/-! ## Nodes -/

theorem nodes_addNode (s : Snapshot) (n : Node) :
    (s.addNode n).nodes = s.nodes.push (copy s.nodes.size n s.sockets.size) := rfl

theorem owners_addNode (s : Snapshot) (n : Node) :
    (s.addNode n).owners = s.owners ++ n.ports.map fun p => (s.nodes.size, p) := by
  have hports (first : Nat) (ports : List Port) : (socketsFrom first s.nodes.size ports).map
      (fun socket => (socket.node, socket.port)) = ports.map fun p => (s.nodes.size, p) := by
    rw [socketsFrom, List.map_map]
    conv_rhs => rw [← List.zipIdx_map_fst 0 ports, List.map_map]
    rfl
  rw [Node.ports, List.map_append, ← List.append_assoc, ← hports s.sockets.size n.inputs,
    ← hports (s.sockets.size + n.inputs.length) n.outputs]
  simp only [owners, addNode, Array.toList_append, List.map_append]

theorem copies_empty (name : String) : Copies { name } [] :=
  ⟨rfl, fun h => by simp at h, fun h => by simp [owners] at h⟩

theorem getElem?_concat_cases {α : Type} {xs : List α} {x y : α} {i : Nat} (h : (xs ++ [x])[i]? = some y) :
    xs[i]? = some y ∨ i = xs.length ∧ y = x := by
  rw [List.getElem?_append] at h
  split at h
  · exact .inl h
  · rw [List.getElem?_singleton] at h
    split at h
    · cases h
      exact .inr ⟨by omega, rfl⟩
    · cases h

theorem getElem?_append_of_eq_some {α : Type} {xs ys : List α} {x : α} {i : Nat} (h : xs[i]? = some x) :
    (xs ++ ys)[i]? = some x := by
  rw [List.getElem?_append_left (List.getElem?_eq_some_iff.mp h).1, h]

theorem Copies.addNode (h : s.Copies nodes) (n : Node) : (s.addNode n).Copies (nodes ++ [n]) := by
  have hold {j : Nat} {node : SnapshotNode} (hj : s.nodes[j]? = some node) :
      (s.addNode n).nodes[j]? = some node := by
    have hlt := (Array.getElem?_eq_some_iff.mp hj).1
    rw [nodes_addNode, Array.getElem?_push, if_neg (Nat.ne_of_lt hlt), hj]
  have hnew : (s.addNode n).nodes[s.nodes.size]? = some (copy s.nodes.size n s.sockets.size) := by
    rw [nodes_addNode, Array.getElem?_push, if_pos rfl]
  have howner (k : Nat) : (s.addNode n).owners[s.sockets.size + k]? =
      n.ports[k]?.map fun p => (s.nodes.size, p) := by
    rw [owners_addNode, List.getElem?_append_right (by rw [length_owners]; omega), length_owners,
      Nat.add_sub_cancel_left, List.getElem?_map]
  refine ⟨by rw [nodes_addNode, Array.size_push, h.size, List.length_append]; rfl, fun {j m} hj => ?_,
    fun {i j p} hi => ?_⟩
  · rcases getElem?_concat_cases hj with hj | ⟨rfl, rfl⟩
    · obtain ⟨first, hcopy, hsize, hports⟩ := h.node hj
      rw [owners_addNode]
      refine ⟨first, hold hcopy, ?_, fun hk => getElem?_append_of_eq_some (hports hk)⟩
      rw [List.length_append]
      omega
    · rw [← h.size]
      refine ⟨s.sockets.size, hnew, ?_, fun hk => ?_⟩
      · exact Nat.le_of_eq (by rw [owners_addNode, List.length_append, length_owners, List.length_map])
      · rw [howner, hk]
        rfl
  · by_cases hlt : i < s.sockets.size
    · rw [owners_addNode, List.getElem?_append_left (by rwa [length_owners])] at hi
      obtain ⟨m, first, k, hj, hcopy, hk, rfl⟩ := h.place hi
      exact ⟨m, first, k, getElem?_append_of_eq_some hj, hold hcopy, hk, rfl⟩
    · obtain ⟨k, rfl⟩ := Nat.exists_eq_add_of_le (Nat.le_of_not_lt hlt)
      rw [howner, Option.map_eq_some_iff] at hi
      obtain ⟨q, hk, hq⟩ := hi
      cases hq
      exact ⟨n, s.sockets.size, k, by rw [h.size, List.getElem?_concat_length], hnew, hk, rfl⟩

theorem Copies.foldl_addNode (h : s.Copies nodes) (more : List Node) :
    (more.foldl Snapshot.addNode s).Copies (nodes ++ more) := by
  induction more generalizing s nodes with
  | nil => rwa [List.append_nil]
  | cons n more ih =>
      have hrest := ih (h.addNode n)
      rwa [List.append_assoc, List.singleton_append] at hrest

/-! ## Links -/

theorem Copies.of_eq (h : s.Copies nodes) (hn : s'.nodes = s.nodes) (ho : s'.owners = s.owners) :
    s'.Copies nodes := by
  refine ⟨hn ▸ h.size, fun hj => ?_, fun hi => ?_⟩
  · rw [hn, ho]
    exact h.node hj
  · rw [hn]
    exact h.place (ho ▸ hi)

/-- The sockets of two ports, if both are known. -/
def ends (s : Snapshot) (c : PortId × PortId) : Option (Nat × Nat) :=
  (s.socketOf? c.1).bind fun a => (s.socketOf? c.2).map fun b => (a, b)

/-- What a link between two sockets adds to the links of a socket. -/
def added (i : Nat) (link : Nat × Nat) : List Nat :=
  (if link.1 = i then [link.2] else []) ++ if link.2 = i then [link.1] else []

theorem getElem?_addEnd (s : Snapshot) (socket other i : Nat) : (s.addEnd socket other).sockets[i]? =
    s.sockets[i]?.map fun e => { e with links := e.links ++ if socket = i then [other] else [] } := by
  rw [addEnd, Array.getElem?_modify]
  by_cases h : socket = i
  · simp only [h, if_true]
  · simp only [h, if_false, List.append_nil, Option.map_id']

theorem addLink_snd (s : Snapshot) (source target : PortId) : (s.addLink source target).2 =
    match s.ends (source, target) with
    | some (a, b) => (s.addEnd a b).addEnd b a
    | none => s := by
  rw [addLink, ends]
  cases s.socketOf? source <;> cases s.socketOf? target <;> rfl

theorem getElem?_addLink (s : Snapshot) (source target : PortId) (i : Nat) :
    (s.addLink source target).2.sockets[i]? = s.sockets[i]?.map fun e =>
      { e with links := e.links ++ (s.ends (source, target)).toList.flatMap (added i) } := by
  rw [addLink_snd]
  cases s.ends (source, target) with
  | none => simp
  | some link =>
      obtain ⟨a, b⟩ := link
      dsimp only
      rw [getElem?_addEnd, getElem?_addEnd, Option.map_map]
      simp [Function.comp_def, added, List.append_assoc]

theorem nodes_addLink (s : Snapshot) (source target : PortId) :
    (s.addLink source target).2.nodes = s.nodes := by
  rw [addLink_snd]
  cases s.ends (source, target) <;> rfl

theorem owners_addLink (s : Snapshot) (source target : PortId) :
    (s.addLink source target).2.owners = s.owners := by
  apply List.ext_getElem?
  intro i
  rw [owners, owners, List.getElem?_map, List.getElem?_map, Array.getElem?_toList, Array.getElem?_toList,
    getElem?_addLink, Option.map_map]
  rfl

theorem socketBefore?_of_eq (h : s'.owners = s.owners) (port : PortId) (bound : Nat) :
    s'.socketBefore? port bound = s.socketBefore? port bound := by
  have hany (t : Snapshot) (i : Nat) : (t.sockets[i]?.any fun socket => socket.port.id = port) =
      t.owners[i]?.any fun owner => owner.2.id = port := by
    rw [owners, List.getElem?_map, Array.getElem?_toList]
    cases t.sockets[i]? <;> rfl
  induction bound with
  | zero => rfl
  | succ i ih => rw [socketBefore?, socketBefore?, hany, hany, h, ih]

theorem ends_of_eq (h : s'.owners = s.owners) (c : PortId × PortId) : s'.ends c = s.ends c := by
  have hsize : s'.sockets.size = s.sockets.size := by rw [← length_owners, h, length_owners]
  simp only [ends, socketOf?, hsize, socketBefore?_of_eq h]

theorem addLinks_snd (s : Snapshot) (links : List (PortId × PortId)) :
    (s.addLinks links).2.nodes = s.nodes ∧ (s.addLinks links).2.owners = s.owners ∧
      ∀ i : Nat, (s.addLinks links).2.sockets[i]? = s.sockets[i]?.map fun e =>
        { e with links := e.links ++ (links.filterMap s.ends).flatMap (added i) } := by
  induction links generalizing s with
  | nil => simp [addLinks]
  | cons c links ih =>
      obtain ⟨source, target⟩ := c
      obtain ⟨hn, ho, hlinks⟩ := ih (s.addLink source target).2
      have howners := owners_addLink s source target
      refine ⟨hn.trans (nodes_addLink s source target), ho.trans howners, fun i => ?_⟩
      have hends : s.addLink source target |>.2.ends = s.ends := funext (ends_of_eq howners)
      rw [hends] at hlinks
      rw [addLinks, hlinks i, getElem?_addLink, Option.map_map, List.filterMap_cons]
      cases s.ends (source, target) <;> simp [Function.comp_def]

/-- The copies of the nodes of a tree, before links are added. -/
def unlinked (t : Tree) : Snapshot := t.nodes.values.foldl addNode { name := t.name }

theorem nodes_ofTree (t : Tree) : (ofTree t).nodes = (unlinked t).nodes := ((unlinked t).addLinks_snd _).1

theorem owners_ofTree (t : Tree) : (ofTree t).owners = (unlinked t).owners := ((unlinked t).addLinks_snd _).2.1

theorem copies_ofTree (t : Tree) : (ofTree t).Copies t.nodes.values :=
  ((copies_empty t.name).foldl_addNode t.nodes.values).of_eq (nodes_ofTree t) (owners_ofTree t)

theorem map_snd_owners_foldl (nodes : List Node) (s : Snapshot) :
    (nodes.foldl addNode s).owners.map Prod.snd = s.owners.map Prod.snd ++ nodes.flatMap Node.ports := by
  induction nodes generalizing s with
  | nil => simp
  | cons n nodes ih =>
      rw [List.foldl_cons, ih, owners_addNode]
      simp [Function.comp_def]

theorem map_snd_owners_ofTree (t : Tree) :
    (ofTree t).owners.map Prod.snd = t.nodes.values.flatMap Node.ports := by
  rw [owners_ofTree, unlinked, map_snd_owners_foldl]
  rfl

theorem size_sockets_ofTree (t : Tree) :
    (ofTree t).sockets.size = (t.nodes.values.flatMap Node.ports).length := by
  rw [← map_snd_owners_ofTree, List.length_map, length_owners]

end Snapshot

end Nodeflow
