import Nodeflow.Proofs.FunctionGraph.Partial
import Nodeflow.Proofs.Generation.Interface
import Nodeflow.Proofs.Tree.Editing

/-!
# The function of a tree

A tree that has been lowered has a function: its dependencies can be told, and it has a program if
its registers can be numbered. The one fault on the way is a single node that is to be input node
and output node at once, as its outputs then stand for nothing.
-/

namespace Nodeflow

namespace FunctionGraph

variable {g : FunctionGraph} {nodes : List DataNode}

theorem Standard.readable (hs : g.Standard) : g.Readable := by
  intro n entry hn hentry position hlt
  obtain ⟨op, hop⟩ := exists_operations hs
  have hf := hop n entry hn hentry
  refine ⟨List.range entry.inputCount, ?_, fun j hj => List.mem_range.mp hj⟩
  rw [NodeEntry.outputCount, hf] at hlt
  rw [NodeEntry.inputCount, hf]
  exact (op n).reads_eq hlt

theorem Lists.length_le (hl : g.Lists nodes) (hg : Wiring.Numbered g.graph) : nodes.length ≤ g.graph.nodes.size := by
  have hnodup : (nodes.map DataNode.index).Nodup :=
    List.Nodup.map (fun m n h => by cases m; cases n; cases h; rfl) hl.nodup
  have hsub : nodes.map DataNode.index ⊆ List.range g.graph.nodes.size := by
    intro i hi
    obtain ⟨n, hn, rfl⟩ := List.mem_map.mp hi
    obtain ⟨s, htakes⟩ := ((hl.mem_iff n).mp hn).exists_takesFrom
    exact List.mem_range.mpr (htakes.index_lt hg)
  simpa using (List.subperm_of_subset hnodup hsub).length_le

theorem Standard.exists_program? (hs : g.Standard) (hg : g.graph.Frozen) (hnodes : g.neededNodes = .ok nodes)
    (hsize : g.inputs.length + 3 * g.graph.nodes.size < UInt32.size) : ∃ p?, g.program? = .ok p? := by
  obtain ⟨op, hop⟩ := exists_operations hs
  rcases program?_cases hg (emittable_of_standard hop) hnodes with ⟨-, hle⟩ | ⟨p, hp, -⟩
  · have hlen := (lists_neededNodes hg hnodes).length_le hg.toNumbered
    simp only [registerBudget, List.map_const', List.sum_replicate_nat] at hle
    omega
  · exact ⟨_, hp⟩

/-- A graph of operations has a function, if its registers can be numbered. -/
theorem Standard.exists_function (hs : g.Standard) {graph : DataGraph} {inputs outputs : List DataSocket}
    (hnew : FunctionGraph.new graph inputs outputs = .ok g) (hg : g.graph.Frozen)
    (hsize : g.inputs.length + 3 * g.graph.nodes.size < UInt32.size) (name : String) (config : Config) :
    ∃ f, g.function name config = .ok f := by
  obtain ⟨nodes, hnodes⟩ := exists_neededNodes hnew hg
  obtain ⟨rfl, hcontains⟩ := new_eq_ok_iff.mp hnew
  obtain ⟨lists, hd, hlists⟩ := exists_dependencies hg (fun s hmem => hcontains s (List.mem_append_right _ hmem))
    hs.readable hnodes
  obtain ⟨p?, hp⟩ := hs.exists_program? hg hnodes hsize
  exact FunctionGraph.exists_function hg.toNumbered hcontains hd hlists hp name config

end FunctionGraph

namespace Lower

variable {tree : Snapshot} {config : Config} {node : SnapshotNode} {f : Function}

theorem Inserts.le_outputs (h : Inserts tree config node f) (hid : node.idname = config.inputNode)
    (hclash : config.inputNode = config.outputNode → node.idname ∉ Inserters.builtinNames →
      node.outputs.length < 2) : node.outputs.length - 1 ≤ f.outputs.size := by
  cases h with
  | builtin _ _ hout =>
      have hlen := hout.length_eq
      rw [Array.length_toList] at hlen
      omega
  | results hb hout _ =>
      have := hclash (hid.symm.trans hout) hb
      omega
  | arguments _ _ _ hp =>
      rw [Builtin.functionInput, List.size_toArray, ← hp.length_eq, List.length_dropLast]

theorem Inserts.le_inputs (h : Inserts tree config node f) (hid : node.idname = config.outputNode) :
    node.inputs.length - 1 ≤ f.inputs.size := by
  cases h with
  | builtin _ hin _ =>
      have hlen := hin.length_eq
      rw [Array.length_toList] at hlen
      omega
  | results _ _ hp =>
      rw [Builtin.functionOutput, List.size_toArray, ← hp.length_eq, List.length_dropLast]
  | arguments _ ho _ _ => exact absurd hid ho

end Lower

namespace Snapshot

open Lower LoweredTree

variable {tree : Snapshot} {config : Config} {nodes : List Node} {d : Draft} {t : LoweredTree}

/-- One node type is both sides of the interface, and a node of it has outputs to declare. -/
def Clash (tree : Snapshot) (config : Config) : Prop :=
  config.inputNode = config.outputNode ∧ config.inputNode ∉ Inserters.builtinNames ∧
    ∃ node ∈ tree.nodes.toList, node.idname = config.inputNode ∧ 2 ≤ node.outputs.length

theorem Lowers.exists_side (h : Lowers tree config d t) (idname : String) (side : SnapshotNode → List Nat)
    (hnodup : ∀ node ∈ tree.nodes.toList, (side node).Nodup)
    (hall : ∀ (n : Nat) node, tree.nodes[n]? = some node → node.idname = idname →
      ∀ i ∈ (side node).dropLast, ∃ s, t.socket? i = some s) : ∃ ss, Side t tree idname side ss := by
  match hnodes : tree.nodesOfType idname with
  | [] => exact ⟨[], .missing hnodes⟩
  | n :: rest =>
      obtain ⟨node, hn, hid⟩ := h.numbered.mem_nodesOfType_iff.mp (hnodes ▸ List.mem_cons_self : n ∈ tree.nodesOfType idname)
      obtain ⟨ss, hss⟩ := exists_forall₂ (hall n node hn hid)
      refine ⟨ss, .node (by rw [hnodes]; rfl) hn hid ?_ hss⟩
      have hmem : node ∈ tree.nodes.toList := by
        rw [Array.mem_toList_iff]
        exact Array.mem_of_getElem? hn
      have hdrop : (side node).dropLast.Nodup := (hnodup node hmem).sublist (List.dropLast_sublist _)
      rw [List.nodup_iff_getElem?_ne_getElem?]
      intro i j hij hlt heq
      obtain ⟨s, hs⟩ : ∃ s, ss[j]? = some s := ⟨_, List.getElem?_eq_getElem hlt⟩
      obtain ⟨a, ha, hat⟩ := (forall₂_iff_getElem?.mp hss.flip).2 hs
      obtain ⟨b, hb, hbt⟩ := (forall₂_iff_getElem?.mp hss.flip).2 (heq.trans hs)
      rw [h.socket?] at hat hbt
      have hab := h.completed.standing.injective hat hbt
      exact List.nodup_iff_getElem?_ne_getElem?.mp hdrop i j hij (List.getElem?_eq_some_iff.mp ha).1
        (hb.trans (hab ▸ ha.symm))

theorem nodup_copy (hc : tree.Copies nodes) {node : SnapshotNode} (hn : node ∈ tree.nodes.toList) :
    node.inputs.Nodup ∧ node.outputs.Nodup := by
  obtain ⟨j, hj⟩ := List.mem_iff_getElem?.mp hn
  rw [Array.getElem?_toList] at hj
  have hlt : j < nodes.length := hc.size ▸ (Array.getElem?_eq_some_iff.mp hj).1
  obtain ⟨first, hcopy, -⟩ := hc.node (List.getElem?_eq_getElem hlt)
  rw [hj] at hcopy
  cases hcopy
  exact ⟨List.nodup_range', List.nodup_range'⟩

/-- The interface of a lowered tree is known, unless one node is to be both sides of it. -/
theorem Lowers.exists_interface (h : Lowers tree config d t) (hc : tree.Copies nodes)
    (hclash : ¬tree.Clash config) : ∃ sockets, t.interface tree config = .ok sockets := by
  have hmem {n : Nat} {node : SnapshotNode} (hn : tree.nodes[n]? = some node) : node ∈ tree.nodes.toList :=
    Array.mem_toList_iff.mpr (Array.mem_of_getElem? hn)
  obtain ⟨inputs, hin⟩ := h.exists_side config.inputNode SnapshotNode.outputs
    (fun _ hn => (nodup_copy hc hn).2) fun n node hn hid i hi => by
      obtain ⟨k, hk, hlt⟩ := exists_getElem?_of_mem_dropLast hi
      obtain ⟨entry, -, hstands⟩ := h.completed.represented _ _ hn
      have hle : node.outputs.length - 1 ≤ entry.outputCount :=
        hstands.inserts.le_outputs hid fun heq hb => by
          by_contra hlt
          exact hclash ⟨heq, hid ▸ hb, node, hmem hn, hid, Nat.le_of_not_lt hlt⟩
      rw [h.socket?, hstands.output hk, if_pos (by omega)]
      exact ⟨_, rfl⟩
  obtain ⟨outputs, hout⟩ := h.exists_side config.outputNode SnapshotNode.inputs
    (fun _ hn => (nodup_copy hc hn).1) fun n node hn hid i hi => by
      obtain ⟨k, hk, hlt⟩ := exists_getElem?_of_mem_dropLast hi
      obtain ⟨entry, -, hstands⟩ := h.completed.represented _ _ hn
      have hle : node.inputs.length - 1 ≤ entry.inputCount := hstands.inserts.le_inputs hid
      rw [h.socket?, hstands.input hk, if_pos (by omega)]
      exact ⟨_, rfl⟩
  exact ⟨⟨inputs, outputs⟩, (interface_eq_ok_iff h.numbered).mpr ⟨hin, hout⟩⟩

theorem length_side_le (hc : tree.Copies nodes) {idname : String} {ss : List DataSocket}
    (hs : Side t tree idname SnapshotNode.outputs ss) : ss.length ≤ tree.sockets.size := by
  cases hs with
  | missing => exact Nat.zero_le _
  | @node n node _ _ hn _ _ hall =>
      have hlt : n < nodes.length := hc.size ▸ (Array.getElem?_eq_some_iff.mp hn).1
      obtain ⟨first, hcopy, hsize, -⟩ := hc.node (List.getElem?_eq_getElem hlt)
      rw [hn] at hcopy
      cases hcopy
      rw [length_owners, Node.ports, List.length_append] at hsize
      rw [← hall.length_eq, List.length_dropLast, copy, List.length_range']
      omega

end Snapshot

namespace Tree

open Snapshot

variable {t : Tree} {config : Config} {d : Draft} {lowered : LoweredTree} {sockets : InterfaceSockets}
  {g : FunctionGraph} {p : Package}

def registerBound (t : Tree) : Nat := 3 * t.nodes.values.length + 7 * t.ports.length

/-- How a function came from a tree. -/
structure Generates (t : Tree) (config : Config) (d : Draft) (lowered : LoweredTree) (sockets : InterfaceSockets)
    (g : FunctionGraph) (p : Package) : Prop where
  lowers : (ofTree t).Lowers config d lowered
  interface : lowered.interface (ofTree t) config = .ok sockets
  graph : FunctionGraph.new lowered.graph sockets.inputs sockets.outputs = .ok g
  function : g.function t.name config = .ok p.function
  dataGraph? : p.dataGraph? = some lowered

theorem exists_generates (h : t.generate config (.builtin config) = .ok (some p)) :
    ∃ d lowered sockets g, t.Generates config d lowered sockets g p := by
  simp only [generate, bind_eq_ok_iff] at h
  obtain ⟨result, hlower, h⟩ := h
  cases result with
  | error e => cases h
  | ok lowered =>
      simp only [bind_eq_ok_iff, pure_eq_ok_iff, Option.some.injEq] at h
      obtain ⟨sockets, hsockets, g, hg, f, hf, rfl⟩ := h
      obtain ⟨d, hd⟩ := exists_lowers (copies_ofTree t) hlower
      exact ⟨d, lowered, sockets, g, hd, hsockets, hg, hf, rfl⟩

theorem Generates.graph_eq (h : t.Generates config d lowered sockets g p) :
    g = ⟨lowered.graph, sockets.inputs, sockets.outputs⟩ := by
  have hg := h.graph
  rw [h.lowers.functionGraph_eq h.interface] at hg
  exact (Except.ok.inj hg).symm

theorem Generates.frozen (h : t.Generates config d lowered sockets g p) : g.graph.Frozen :=
  h.graph_eq ▸ h.lowers.frozen

theorem Generates.ignoresContext (h : t.Generates config d lowered sockets g p) : g.IgnoresContext :=
  h.graph_eq ▸ h.lowers.ignoresContext _ _

theorem Generates.leavesCounts (h : t.Generates config d lowered sockets g p) : g.LeavesCounts :=
  h.graph_eq ▸ h.lowers.leavesCounts _ _

theorem Generates.contains (h : t.Generates config d lowered sockets g p) :
    ∀ s ∈ g.inputs ++ g.outputs, g.graph.contains s := by
  obtain ⟨rfl, hcontains⟩ := FunctionGraph.new_eq_ok_iff.mp h.graph
  exact hcontains

theorem Generates.standard (h : t.Generates config d lowered sockets g p) : g.Standard :=
  h.graph_eq ▸ h.lowers.standard h.interface

theorem exists_generate_of_lowers (hlower : (ofTree t).lower config (.builtin config) = .ok (.ok lowered))
    (hclash : ¬(ofTree t).Clash config) (hsize : t.registerBound < UInt32.size) :
    ∃ p, t.generate config (.builtin config) = .ok (some p) := by
  have hc := copies_ofTree t
  obtain ⟨d, hd⟩ := exists_lowers hc hlower
  obtain ⟨sockets, hsockets⟩ := hd.exists_interface hc hclash
  have hg := hd.functionGraph_eq hsockets
  have hinputs : sockets.inputs.length ≤ t.ports.length := by
    have hle := length_side_le hc ((LoweredTree.interface_eq_ok_iff hd.numbered).mp hsockets).1
    rwa [size_sockets_ofTree] at hle
  have hnodes : lowered.graph.nodes.size ≤ t.nodes.values.length + 2 * t.ports.length := by
    have hle := hd.completed.nodes
    rwa [← hd.nodes_eq, size_sockets_ofTree, hc.size] at hle
  obtain ⟨f, hf⟩ := (hd.standard hsockets).exists_function hg hd.frozen
    (by rw [registerBound] at hsize; dsimp only; omega) t.name config
  refine ⟨⟨f, [(Package.treeName, .tree (ofTree t)), (Package.dataGraphName, .dataGraph lowered)]⟩, ?_⟩
  rw [generate, hlower, ok_bind]
  simp only [hsockets, ok_bind, hg, hf]
  rfl

/-- Generation ends without a fault, unless one node is to be both sides of the interface. -/
theorem exists_generate (hclash : ¬(ofTree t).Clash config) (hsize : t.registerBound < UInt32.size) :
    ∃ p?, t.generate config (.builtin config) = .ok p? := by
  rcases lower_cases (copies_ofTree t) config with ⟨lowered, d, hlower, -⟩ | ⟨e, he, -⟩
  · obtain ⟨p, hp⟩ := exists_generate_of_lowers hlower hclash hsize
    exact ⟨some p, hp⟩
  · refine ⟨none, ?_⟩
    rw [generate, he]
    rfl

end Tree

end Nodeflow
