import Nodeflow.Proofs.Lowering.Offered
import Mathlib.Data.Finset.Lattice.Fold
import Mathlib.Order.Lattice.Nat

/-!
# Circles of a tree and of its data graph

The data graph of a tree has nodes that the tree has not, the conversions and constants, and leaves
out what leads to a placeholder. Still it has a circle exactly if the tree has one.
-/

namespace Nodeflow

namespace DataGraphBuilder

variable {b : DataGraphBuilder} {s : InputSocket} {o o' : OutputSocket} {entry : NodeEntry} {n k : Nat}

theorem HasOrigin.unique (h : HasOrigin b s o) (h' : HasOrigin b s o') : o = o' := by
  obtain ⟨e, he, ho⟩ := h
  obtain ⟨e', he', ho'⟩ := h'
  rw [he, Option.some.injEq] at he'
  subst he'
  rw [ho, Option.some.injEq] at ho'
  exact ho'

theorem output_first (hb : Wiring.Numbered b) (hn : b.nodes[n]? = some entry) (hk : 0 < entry.outputCount) :
    ∃ e, b.outputs[entry.firstOutput]? = some e ∧ e.node.index = n := by
  obtain ⟨targets, h⟩ := hb.output_at hn hk
  exact ⟨_, h, rfl⟩

theorem Carries.rank_lt {rank : Nat → Nat} (hr : Ranked b rank) (hb : Wiring.Numbered b) (hn : b.nodes[n]? = some entry)
    (hk : k < entry.inputCount) (h : Carries b o ⟨entry.firstInput + k⟩) {e : OutputEntry}
    (he : b.outputs[o.index]? = some e) : rank e.node.index < rank n := by
  cases h with
  | direct ho => exact hr hn hk ho he
  | @converted source target f m between hs ht hf hm hfunction hin hout =>
      obtain ⟨-, p, q, hinputs, houtputs, -⟩ := exists_of_conversion? hf
      have hcount : 0 < between.inputCount := by simp [NodeEntry.inputCount, hfunction, hinputs]
      obtain ⟨e', he', hnode⟩ := output_first hb hm (by simp [NodeEntry.outputCount, hfunction, houtputs])
      have hfirst : rank e.node.index < rank m := hr hm hcount (by simpa using hin) he
      have hsecond := hr hn hk hout he'
      rw [hnode] at hsecond
      exact Nat.lt_trans hfirst hsecond

end DataGraphBuilder

namespace Lower

open Inserters Snapshot DataGraphBuilder

variable {tree : Snapshot} {config : Config} {node : SnapshotNode} {d : Draft} {i j : Nat} {o : OutputSocket}

theorem Represented.outputNode {nodes : List Node} (h : Represented tree config d) (hc : tree.Copies nodes)
    (hsize : d.sockets.size = tree.sockets.size) (hb : Wiring.Numbered d.builder) {socket : SnapshotSocket}
    (hs : tree.sockets[i]? = some socket) (hi : d.socket? i = some (.output o)) :
    ∃ e, d.builder.outputs[o.index]? = some e ∧ e.node.index = socket.node := by
  cases h.place hc hsize hi with
  | @output j k node entry hn he hat hk =>
      obtain ⟨targets, hplace⟩ := hb.output_at he hk
      obtain ⟨socket', hs', hj⟩ := exists_socket_of_mem hc hn (List.mem_append_right _ (List.mem_of_getElem? hat))
      obtain rfl := Option.some.inj (hs.symm.trans hs')
      exact ⟨_, hplace, hj.symm⟩

theorem Inserts.size_eq {f : Function} (h : Inserts tree config node f) (hname : node.idname ∈ builtinNames) :
    f.inputs.size = node.inputs.length ∧ f.outputs.size = node.outputs.length := by
  cases h with
  | builtin _ hin hout => exact ⟨by rw [hin.length_eq, Array.length_toList], by rw [hout.length_eq, Array.length_toList]⟩
  | results hb => exact absurd hname hb
  | arguments hb => exact absurd hname hb

/-- No node of a tree stands for a conversion. -/
theorem Inserts.not_conversion {f : Function} (h : Inserts tree config node f) {source target : ValueType} :
    Builtin.conversion? source target ≠ some f := by
  intro hf
  obtain ⟨-, p, q, hin, hout, rfl, -⟩ := exists_of_conversion? hf
  have htype : p.type = .int ∨ p.type = .float := by
    generalize p.type = source at hf
    generalize q.type = target at hf
    unfold Builtin.conversion? at hf
    split at hf
    · exact .inl rfl
    · exact .inr rfl
    · cases hf
  cases h with
  | builtin hmem _ _ =>
      have hall : ∀ types ∈ builtinFunctions.map fun e => e.2.inputs.toList.map Parameter.type,
          types ≠ [.int] ∧ types ≠ [.float] := by decide
      have hne := hall _ (List.mem_map_of_mem (f := fun e : String × Function => e.2.inputs.toList.map Parameter.type) hmem)
      simp only [hin, List.map_cons, List.map_nil, ne_eq, List.cons.injEq, and_true] at hne
      exact htype.elim hne.1 hne.2
  | results => cases hout
  | arguments => cases hin

end Lower

namespace Tree.Functional

open Lower Inserters Snapshot DataGraphBuilder

variable {t : Tree} {d : Draft} {i j k : Nat} {n : Node} {entry : NodeEntry} {o : OutputSocket} {r : NodeId → Nat}

/-! ## Ranks of data nodes -/

/-- A node of the tree has an odd rank in the data graph, which leaves room for conversions. -/
def weight (t : Tree) (r : NodeId → Nat) (j : Nat) : Nat :=
  (t.nodes.values[j]?.map fun n => 2 * r n.id + 1).getD 0

theorem weight_lt (hr : t.Ranked r) {c : Connection} (hc : c ∈ t.connections.values) {a : Nat}
    {source socket : SnapshotSocket} (hspans : Spans t c a i source socket) :
    weight t r source.node + 1 < weight t r socket.node := by
  obtain ⟨n, hn, hid⟩ := hspans.sourceNode
  obtain ⟨m, hm, hid'⟩ := hspans.targetNode
  have hlt := hr c hc
  rw [weight, weight, hn, hm, Option.map_some, Option.map_some, Option.getD_some, Option.getD_some, hid, hid']
  omega

/-- The rank of a node comes right after the weight of the node that its first input takes its value from. -/
def FollowsOrigin (b : DataGraphBuilder) (weight rank : Nat → Nat) : Prop :=
  ∀ {n : Nat} {entry : NodeEntry} {o : OutputSocket} {e : OutputEntry}, b.nodes[n]? = some entry →
    HasOrigin b ⟨entry.firstInput⟩ o → b.outputs[o.index]? = some e → rank n = weight e.node.index + 1

theorem exists_followsOrigin (b : DataGraphBuilder) (weight : Nat → Nat) : ∃ rank, FollowsOrigin b weight rank := by
  have hone (n : Nat) : ∃ R : Nat, ∀ (entry : NodeEntry) (o : OutputSocket) (e : OutputEntry), b.nodes[n]? = some entry →
      HasOrigin b ⟨entry.firstInput⟩ o → b.outputs[o.index]? = some e → R = weight e.node.index + 1 := by
    by_cases h : ∃ (entry : NodeEntry) (o : OutputSocket) (e : OutputEntry), b.nodes[n]? = some entry ∧
        HasOrigin b ⟨entry.firstInput⟩ o ∧ b.outputs[o.index]? = some e
    · obtain ⟨entry, o, e, hn, ho, he⟩ := h
      refine ⟨weight e.node.index + 1, fun entry' o' e' hn' ho' he' => ?_⟩
      obtain rfl := Option.some.inj (hn.symm.trans hn')
      obtain rfl := ho.unique ho'
      obtain rfl := Option.some.inj (he.symm.trans he')
      rfl
    · exact ⟨0, fun entry o e hn ho he => absurd ⟨entry, o, e, hn, ho, he⟩ h⟩
  choose rank hrank using hone
  exact ⟨rank, fun hn ho he => hrank _ _ _ _ hn ho he⟩

/-- Where an input of a node gets its value from: a constant, or the node at the other end of a connection. -/
inductive Origin (t : Tree) (d : Draft) (j : Nat) (s : InputSocket) : Prop
  | constant {m : Nat} {entry : NodeEntry} (hm : d.builder.nodes[m]? = some entry) (hnone : entry.inputCount = 0)
      (hsome : 0 < entry.outputCount) (ho : HasOrigin d.builder s ⟨entry.firstOutput⟩) : Origin t d j s
  | connection {c : Connection} {a i : Nat} {source socket : SnapshotSocket} {o : OutputSocket} {e : OutputEntry}
      (hc : c ∈ t.connections.values) (hspans : Spans t c a i source socket) (hj : socket.node = j)
      (he : d.builder.outputs[o.index]? = some e) (hnode : e.node.index = source.node)
      (h : Carries d.builder o s) : Origin t d j s

theorem Origin.of_supplied {port : PortSpec} {s : InputSocket} (h : Supplied d.builder port s []) : Origin t d j s := by
  obtain ⟨type, -, m, constant, hm, hf, ho⟩ := h
  exact .constant hm (by simp [NodeEntry.inputCount, hf, Builtin.constant])
    (by simp [NodeEntry.outputCount, hf, Builtin.constant]) ho

theorem origin (h : t.Functional) (hd : Completed (ofTree t) {} d) (hn : t.nodes.values[j]? = some n)
    (he : d.builder.nodes[j]? = some entry) (hk : k < entry.inputCount) : Origin t d j ⟨entry.firstInput + k⟩ := by
  obtain ⟨i, socket, hs, hj, -, hin, hi, hsupplied⟩ := h.supplied hd hn he hk
  rcases h.sources_cases d hs hin with hsources | ⟨c, hc, a, source, o, hspans, ho, hsources⟩
  · rw [hsources] at hsupplied
    exact .of_supplied hsupplied
  · rw [hsources] at hsupplied
    obtain ⟨e, he, hnode⟩ := hd.represented.outputNode (copies_ofTree t) hd.standing.size hd.typed.toNumbered
      hspans.sourceSocket ho
    exact .connection hc hspans hj he hnode hsupplied

/-- The ranks of data nodes: nodes without inputs come first, and further nodes have ranks of their own. -/
def dataRank (t : Tree) (b : DataGraphBuilder) (r : NodeId → Nat) (extra : Nat → Nat) (m : Nat) : Nat :=
  if (b.nodes[m]?).any (fun entry => entry.inputCount = 0) then 0
  else if m < t.nodes.values.length then weight t r m else extra m

theorem dataRank_of_no_inputs {b : DataGraphBuilder} {extra : Nat → Nat} {m : Nat} (hm : b.nodes[m]? = some entry)
    (hnone : entry.inputCount = 0) : dataRank t b r extra m = 0 :=
  if_pos (by simp [hm, hnone])

theorem dataRank_of_inputs {b : DataGraphBuilder} {extra : Nat → Nat} {m : Nat} (hm : b.nodes[m]? = some entry)
    (hk : k < entry.inputCount) :
    dataRank t b r extra m = if m < t.nodes.values.length then weight t r m else extra m :=
  if_neg (by simp [hm]; omega)

theorem dataRank_le {b : DataGraphBuilder} {extra : Nat → Nat} {m : Nat} (hm : m < t.nodes.values.length) :
    dataRank t b r extra m ≤ weight t r m := by
  rw [dataRank, if_pos hm]
  split
  · exact Nat.zero_le _
  · exact Nat.le_refl _

/-- What a connection brings to a data input comes from a node of lower rank than that of the node at its target. -/
theorem dataRank_lt_of_carries (hd : Completed (ofTree t) {} d) (hr : t.Ranked r) {extra : Nat → Nat}
    (hextra : FollowsOrigin d.builder (weight t r) extra) {c : Connection} (hc : c ∈ t.connections.values) {a : Nat}
    {source socket : SnapshotSocket} (hspans : Spans t c a i source socket) {e : OutputEntry}
    (he : d.builder.outputs[o.index]? = some e) (hnode : e.node.index = source.node) {s : InputSocket}
    (hcarries : Carries d.builder o s) {o' : OutputSocket} {e' : OutputEntry} (ho : HasOrigin d.builder s o')
    (he' : d.builder.outputs[o'.index]? = some e') :
    dataRank t d.builder r extra e'.node.index < weight t r socket.node := by
  have hweight := weight_lt hr hc hspans
  cases hcarries with
  | direct ho' =>
      obtain rfl := ho.unique ho'
      obtain rfl := Option.some.inj (he.symm.trans he')
      obtain ⟨n, hn, -⟩ := hspans.sourceNode
      rw [hnode]
      exact Nat.lt_of_le_of_lt (dataRank_le (List.getElem?_eq_some_iff.mp hn).1) (Nat.lt_of_succ_lt hweight)
  | @converted type type' f m between _ _ hf hm hfunction hin hout =>
      obtain rfl := ho.unique hout
      obtain ⟨-, p, q, hinputs, houtputs, -⟩ := exists_of_conversion? hf
      obtain ⟨e'', he'', hnode'⟩ := output_first hd.typed.toNumbered hm
        (by simp [NodeEntry.outputCount, hfunction, houtputs])
      obtain rfl := Option.some.inj (he'.symm.trans he'')
      -- the conversion is no node of the tree, so its rank lies between those of the two nodes
      have hge : ¬m < t.nodes.values.length := by
        intro hlt
        obtain ⟨node, entry', -, hentry, hstands⟩ := hd.exists_stands (List.getElem?_eq_getElem hlt)
        obtain rfl := Option.some.inj (hm.symm.trans hentry)
        exact hstands.inserts.not_conversion (hfunction ▸ hf)
      rw [hnode', dataRank_of_inputs (k := 0) hm (by simp [NodeEntry.inputCount, hfunction, hinputs]),
        if_neg hge, hextra hm hin he, hnode]
      exact hweight

/-- Numbers for the nodes of a tree that every connection raises give ranks to the nodes of its data graph. -/
theorem exists_dataRank (h : t.Functional) (hd : Completed (ofTree t) {} d) (hr : t.Ranked r) :
    ∃ rank, DataGraphBuilder.Ranked d.builder rank := by
  obtain ⟨extra, hextra⟩ := exists_followsOrigin d.builder (weight t r)
  have hsize := (copies_ofTree t).size
  refine ⟨dataRank t d.builder r extra, fun {m k entry o e} hm hk ho he => ?_⟩
  rw [dataRank_of_inputs hm hk]
  by_cases hlt : m < t.nodes.values.length
  · rw [if_pos hlt]
    have hn := List.getElem?_eq_getElem hlt
    cases h.origin hd hn hm hk with
    | @constant m' constant hm' hnone hsome ho' =>
        obtain rfl := ho.unique ho'
        obtain ⟨e', he', hnode⟩ := output_first hd.typed.toNumbered hm' hsome
        obtain rfl := Option.some.inj (he.symm.trans he')
        rw [hnode, dataRank_of_no_inputs hm' hnone, weight, hn]
        exact Nat.succ_pos _
    | connection hc hspans hj he' hnode hcarries =>
        subst hj
        exact dataRank_lt_of_carries hd hr hextra hc hspans he' hnode hcarries ho he
  · -- a conversion or a constant: its one input, if it has one, comes from a node of the tree
    rw [if_neg hlt]
    obtain ⟨-, hone, hlinked⟩ := hd.extra hm (hsize ▸ Nat.le_of_not_lt hlt)
    obtain rfl : k = 0 := by omega
    obtain ⟨o', e', ho', he', hN⟩ := hlinked 0 hk
    obtain rfl := ho.unique ho'
    obtain rfl := Option.some.inj (he.symm.trans he')
    rw [hextra hm ho he]
    exact Nat.lt_succ_of_le (dataRank_le (hsize ▸ hN))

/-! ## Ranks of tree nodes -/

theorem WellFormed.key_at (h : t.WellFormed) (hn : t.nodes.values[j]? = some n) :
    t.nodes.keys[j]? = some n.id ∧ t.nodes.get? n.id = some n := by
  rw [OrderedMap.values, List.getElem?_map, Option.map_eq_some_iff] at hn
  obtain ⟨⟨id, n⟩, hentry, rfl⟩ := hn
  have hget : t.nodes.get? id = some n := (OrderedMap.get?_eq_some_iff h.nodeKeys).mpr (List.mem_of_getElem? hentry)
  rw [h.node_id hget]
  exact ⟨by rw [OrderedMap.keys, List.getElem?_map, hentry]; rfl, hget⟩

theorem ne_interface {name : String} (h : name ∈ builtinNames) :
    name ≠ Idname.functionInput ∧ name ≠ Idname.functionOutput := by
  have hall : ∀ name ∈ builtinNames, name ≠ Idname.functionInput ∧ name ≠ Idname.functionOutput := by decide
  exact hall name h

/-- The ranks of nodes: the input node comes first, the output node last. -/
def treeRank (t : Tree) (rank : Nat → Nat) (id : NodeId) : Nat :=
  match (t.nodes.get? id).map Node.idname with
  | none => 0
  | some idname =>
      if idname = Idname.functionInput then 0
      else if idname = Idname.functionOutput then (Finset.range t.nodes.values.length).sup rank + 2
      else rank (t.nodes.keys.idxOf id) + 1

section

variable {rank : Nat → Nat}

theorem treeRank_eq (h : t.WellFormed) (hn : t.nodes.values[j]? = some n) (rank : Nat → Nat) :
    treeRank t rank n.id = if n.idname = Idname.functionInput then 0
      else if n.idname = Idname.functionOutput then (Finset.range t.nodes.values.length).sup rank + 2
      else rank j + 1 := by
  obtain ⟨hkey, hget⟩ := WellFormed.key_at h hn
  obtain ⟨hlt, hid⟩ := List.getElem?_eq_some_iff.mp hkey
  rw [treeRank, hget, Option.map_some, ← hid, h.nodeKeys.idxOf_getElem]

theorem treeRank_arguments (h : t.WellFormed) (hn : t.nodes.values[j]? = some n)
    (hname : n.idname = Idname.functionInput) : treeRank t rank n.id = 0 := by
  rw [treeRank_eq h hn, if_pos hname]

theorem treeRank_results (h : t.WellFormed) (hn : t.nodes.values[j]? = some n)
    (hname : n.idname = Idname.functionOutput) :
    treeRank t rank n.id = (Finset.range t.nodes.values.length).sup rank + 2 := by
  rw [treeRank_eq h hn, if_neg (by rw [hname]; decide), if_pos hname]

theorem treeRank_builtin (h : t.WellFormed) (hn : t.nodes.values[j]? = some n) (hname : n.idname ∈ builtinNames) :
    treeRank t rank n.id = rank j + 1 := by
  obtain ⟨hne, hne'⟩ := ne_interface hname
  rw [treeRank_eq h hn, if_neg hne, if_neg hne']

end

theorem exists_output (h : t.Functional) (hd : Completed (ofTree t) {} d) {socket : SnapshotSocket}
    (hs : (ofTree t).sockets[i]? = some socket) (hdir : socket.port.direction = .output)
    (hn : t.nodes.values[socket.node]? = some n) (hname : n.idname ∈ builtinNames) :
    ∃ o, d.socket? i = some (.output o) := by
  obtain ⟨n', node, k, hn', hnode, hi, -⟩ := h.exists_place_output hs hdir
  obtain rfl := Option.some.inj (hn.symm.trans hn')
  obtain ⟨entry, he, hstands⟩ := hd.represented _ _ hnode
  have hid := ((copies_ofTree t).sockets hn hnode).1
  have hcount : k < entry.outputCount := by
    have hlt := (List.getElem?_eq_some_iff.mp hi).1
    rwa [NodeEntry.outputCount, (hstands.inserts.size_eq (hid ▸ hname)).2]
  exact ⟨_, (hstands.output hi).trans (if_pos hcount)⟩

theorem exists_input (h : t.Functional) (hd : Completed (ofTree t) {} d) {socket : SnapshotSocket}
    (hs : (ofTree t).sockets[i]? = some socket) (hdir : socket.port.direction = .input)
    (hn : t.nodes.values[socket.node]? = some n) (hname : n.idname ∈ builtinNames) :
    ∃ entry k, d.builder.nodes[socket.node]? = some entry ∧ k < entry.inputCount ∧
      d.socket? i = some (.input ⟨entry.firstInput + k⟩) := by
  obtain ⟨n', node, k, hn', hnode, hi, -⟩ := h.exists_place_input hs hdir
  obtain rfl := Option.some.inj (hn.symm.trans hn')
  obtain ⟨entry, he, hstands⟩ := hd.represented _ _ hnode
  have hid := ((copies_ofTree t).sockets hn hnode).1
  have hcount : k < entry.inputCount := by
    have hlt := (List.getElem?_eq_some_iff.mp hi).1
    rwa [NodeEntry.inputCount, (hstands.inserts.size_eq (hid ▸ hname)).1]
  exact ⟨entry, k, he, hcount, (hstands.input hi).trans (if_pos hcount)⟩

theorem outputs_ne_nil (h : t.Functional) {socket : SnapshotSocket} (hs : (ofTree t).sockets[i]? = some socket)
    (hdir : socket.port.direction = .output) (hn : t.nodes.values[socket.node]? = some n) : n.outputs ≠ [] := by
  intro hnil
  obtain ⟨n', node, k, hn', -, -, hp⟩ := h.exists_place_output hs hdir
  obtain rfl := Option.some.inj (hn.symm.trans hn')
  simp [hnil] at hp

theorem inputs_ne_nil (h : t.Functional) {socket : SnapshotSocket} (hs : (ofTree t).sockets[i]? = some socket)
    (hdir : socket.port.direction = .input) (hn : t.nodes.values[socket.node]? = some n) : n.inputs ≠ [] := by
  intro hnil
  obtain ⟨n', node, k, hn', -, -, hp⟩ := h.exists_place_input hs hdir
  obtain rfl := Option.some.inj (hn.symm.trans hn')
  simp [hnil] at hp

theorem rank_lt_of_spans (h : t.Functional) (hd : Completed (ofTree t) {} d) {rank : Nat → Nat}
    (hrank : DataGraphBuilder.Ranked d.builder rank) {c : Connection} (hc : c ∈ t.connections.values) {a : Nat}
    {source socket : SnapshotSocket} (hspans : Spans t c a i source socket) {n m : Node}
    (hn : t.nodes.values[source.node]? = some n) (hname : n.idname ∈ builtinNames)
    (hm : t.nodes.values[socket.node]? = some m) (hname' : m.idname ∈ builtinNames) :
    rank source.node < rank socket.node := by
  obtain ⟨o, ho⟩ := h.exists_output hd hspans.sourceSocket hspans.output hn hname
  obtain ⟨entry, k, hentry, hk, hi⟩ := h.exists_input hd hspans.targetSocket hspans.input hm hname'
  have hsupplied := hd.supplied hspans.targetSocket hi
  rw [if_pos (by simp [SnapshotSocket.isInput, hspans.input]), h.sources_of_spans hc hspans ho] at hsupplied
  have hb := hd.typed.toNumbered
  obtain ⟨e, he, hnode⟩ := hd.represented.outputNode (copies_ofTree t) hd.standing.size hb hspans.sourceSocket ho
  rw [← hnode]
  exact Carries.rank_lt hrank hb hentry hk hsupplied he

/-- Ranks of the nodes of a data graph give numbers for the nodes of its tree that every connection raises. -/
theorem exists_treeRank (h : t.Functional) (hd : Completed (ofTree t) {} d) {rank : Nat → Nat}
    (hrank : DataGraphBuilder.Ranked d.builder rank) : ∃ r, t.Ranked r := by
  refine ⟨treeRank t rank, fun c hc => ?_⟩
  obtain ⟨a, i, source, socket, hspans⟩ := exists_spans h.wellFormed (h.wellFormed.joined c hc)
  obtain ⟨n, hn, hid⟩ := hspans.sourceNode
  obtain ⟨m, hm, hid'⟩ := hspans.targetNode
  have hin := h.inputs_ne_nil hspans.targetSocket hspans.input hm
  rw [← hid, ← hid']
  cases (h.offered n (List.mem_of_getElem? hn)).kind with
  | results _ hnil => exact absurd hnil (h.outputs_ne_nil hspans.sourceSocket hspans.output hn)
  | arguments hname =>
      rw [treeRank_arguments h.wellFormed hn hname]
      cases (h.offered m (List.mem_of_getElem? hm)).kind with
      | arguments _ hnil => exact absurd hnil hin
      | operation hf =>
          rw [treeRank_builtin h.wellFormed hm (List.mem_map_of_mem (f := Prod.fst) hf)]
          exact Nat.succ_pos _
      | results hname' =>
          rw [treeRank_results h.wellFormed hm hname']
          exact Nat.succ_pos _
  | operation hf =>
      have hname := List.mem_map_of_mem (f := Prod.fst) hf
      rw [treeRank_builtin h.wellFormed hn hname]
      cases (h.offered m (List.mem_of_getElem? hm)).kind with
      | arguments _ hnil => exact absurd hnil hin
      | results hname' =>
          rw [treeRank_results h.wellFormed hm hname']
          have hle : rank source.node ≤ (Finset.range t.nodes.values.length).sup rank :=
            Finset.le_sup (Finset.mem_range.mpr (List.getElem?_eq_some_iff.mp hn).1)
          omega
      | operation hf' =>
          have hname' := List.mem_map_of_mem (f := Prod.fst) hf'
          rw [treeRank_builtin h.wellFormed hm hname']
          exact Nat.succ_lt_succ (h.rank_lt_of_spans hd hrank hc hspans hn hname hm hname')

end Tree.Functional

end Nodeflow
