import Nodeflow.Proofs.Generation.Dependencies
import Nodeflow.Proofs.Generation.Execution
import Nodeflow.Proofs.Generation.Sockets

/-!
# The values of ports in generated functions

A generated function computes what its tree means: a call gives the values of the declared inputs of
the output node, as they are read off the tree.
-/

namespace Nodeflow

open Eval

namespace Tree

open Snapshot Lower LoweredTree DataGraphBuilder

variable {t : Tree} {d : Draft} {lowered : LoweredTree} {sockets : InterfaceSockets} {g : FunctionGraph} {p : Package}
  {n : Node} {entry : NodeEntry} {e : Endpoint} {i j k : Nat} {args : List Value} {v : Value}

/-! ## Sockets of ports -/

theorem WellFormed.socketOf?_of_madeFrom (h : t.WellFormed) {port : Port} (hm : (ofTree t).MadeFrom j i port) :
    (ofTree t).socketOf? port.id = some i := by
  obtain ⟨socket, hs, -, rfl⟩ := hm
  exact h.socketOf?_eq hs

theorem exists_inputSocket (hn : t.nodes.values[j]? = some n) {node : SnapshotNode}
    (hnode : (ofTree t).nodes[j]? = some node) {port : Port} (hp : n.inputs[k]? = some port) :
    ∃ i, node.inputs[k]? = some i ∧ (ofTree t).MadeFrom j i port :=
  (forall₂_iff_getElem?.mp ((copies_ofTree t).sockets hn hnode).2.1.flip).2 hp

theorem exists_outputSocket (hn : t.nodes.values[j]? = some n) {node : SnapshotNode}
    (hnode : (ofTree t).nodes[j]? = some node) {port : Port} (hp : n.outputs[k]? = some port) :
    ∃ i, node.outputs[k]? = some i ∧ (ofTree t).MadeFrom j i port :=
  (forall₂_iff_getElem?.mp ((copies_ofTree t).sockets hn hnode).2.2.flip).2 hp

theorem getElem?_dropLast_of_ne_extend {ports : List Port} {types : List PortType} {q : Port}
    (hports : ports.map (fun p => p.type) = types ++ [.extend]) (hq : ports[k]? = some q) (hdata : q.type ≠ .extend) :
    ports.dropLast[k]? = some q := by
  have hlen := congrArg List.length hports
  rw [List.length_map, List.length_append, List.length_singleton] at hlen
  have hlt := (List.getElem?_eq_some_iff.mp hq).1
  rw [List.getElem?_dropLast, if_pos ?_, hq]
  by_contra hge
  have htype := congrArg (fun types => types[k]?) hports
  rw [List.getElem?_map, hq, Option.map_some, show k = types.length by omega, List.getElem?_concat_length] at htype
  exact hdata (Option.some.inj htype)

namespace Functional

theorem exists_dataOutput (h : t.Functional) (hd : Completed (ofTree t) {} d) {socket : SnapshotSocket}
    (hs : (ofTree t).sockets[i]? = some socket) (hdir : socket.port.direction = .output)
    (hdata : socket.port.type ≠ .extend) : ∃ o, d.socket? i = some (.output o) := by
  obtain ⟨n, node, k, hn, hnode, hi, hp⟩ := h.exists_place_output hs hdir
  cases (h.offered n (List.mem_of_getElem? hn)).kind with
  | operation hf => exact h.exists_output hd hs hdir hn (List.mem_map_of_mem (f := Prod.fst) hf)
  | results _ hnil => simp [hnil] at hp
  | @arguments types hname _ hports _ =>
      obtain ⟨entry, he, hstands⟩ := hd.represented _ _ hnode
      obtain ⟨hid, -, hout⟩ := (copies_ofTree t).sockets hn hnode
      have hlt := (List.getElem?_eq_some_iff.mp (getElem?_dropLast_of_ne_extend hports hp hdata)).1
      rw [List.length_dropLast, ← hout.length_eq] at hlt
      have hcount : node.outputs.length - 1 ≤ entry.outputCount :=
        hstands.inserts.le_outputs (hid.trans hname) fun hclash => absurd hclash (by decide)
      exact ⟨_, (hstands.output hi).trans (if_pos (Nat.lt_of_lt_of_le hlt hcount))⟩

/-- The sources of an input to which a connection brings data. -/
theorem sources_of_brings (h : t.Functional) (hd : Completed (ofTree t) {} d) {socket : SnapshotSocket}
    (hs : (ofTree t).sockets[i]? = some socket) {c : Connection} (hc : t.Brings c e) (he : e.port = socket.port.id) :
    ∃ a o, (ofTree t).socketOf? c.source.port = some a ∧ d.socket? a = some (.output o) ∧
      d.sources socket.links = [o] := by
  obtain ⟨hmem, rfl, q, hq, hdata⟩ := hc
  obtain ⟨a, i', source, target, hspans⟩ := exists_spans h.wellFormed (h.wellFormed.joined c hmem)
  obtain rfl := h.wellFormed.socket_unique hspans.targetSocket hs (hspans.targetPort.trans he)
  obtain rfl := Option.some.inj (hs.symm.trans hspans.targetSocket)
  obtain rfl := h.wellFormed.eq_of_id hspans.holds.mem_ports hq.mem_ports (hspans.sourcePort.trans hq.id_eq.symm)
  obtain ⟨o, ho⟩ := h.exists_dataOutput hd hspans.sourceSocket hspans.output hdata
  refine ⟨a, o, ?_, ho, h.sources_of_spans hmem hspans ho⟩
  rw [← hspans.sourcePort]
  exact h.wellFormed.socketOf?_eq hspans.sourceSocket

theorem sources_eq_nil (h : t.Functional) (hd : Completed (ofTree t) {} d) {socket : SnapshotSocket}
    (hs : (ofTree t).sockets[i]? = some socket) (hin : socket.port.direction = .input)
    (hn : t.nodes.values[socket.node]? = some n) (hnone : ∀ c, ¬t.Brings c ⟨n.id, socket.port.id⟩) :
    d.sources socket.links = [] := by
  rcases h.sources_cases d hs hin with hsources | ⟨c, hc, a, source, o, hspans, ho, -⟩
  · exact hsources
  · obtain ⟨type, -, socket', hs', htype⟩ := hd.represented.outputType (copies_ofTree t) hd.standing.size
      hd.typed.toNumbered ho
    obtain rfl := Option.some.inj (hspans.sourceSocket.symm.trans hs')
    obtain ⟨m, hm, hid⟩ := hspans.targetNode
    obtain rfl := Option.some.inj (hn.symm.trans hm)
    have htarget : c.target = ⟨n.id, socket.port.id⟩ := by
      rw [hid, hspans.targetPort]
    refine absurd ⟨hc, htarget, source.port, hspans.holds, ?_⟩ (hnone c)
    intro hextend
    rw [hextend] at htype
    cases htype

end Functional

theorem Functional.supplied_port (h : t.Functional) (hd : Completed (ofTree t) {} d) (hn : n ∈ t.nodes.values)
    {port : Port} (hp : port ∈ n.inputs) {type : ValueType} (htype : port.type.valueType? = some type)
    (hi : (ofTree t).socketOf? port.id = some i) {s : DataSocket} (hs : d.socket? i = some s) :
    ∃ input socket, s = .input input ∧ (ofTree t).sockets[i]? = some socket ∧ t.nodes.values[socket.node]? = some n ∧
      socket.port = port ∧ port.direction = .input ∧ d.builder.inputType input = .ok type ∧
        Supplied d.builder port.toPortSpec input (d.sources socket.links) := by
  obtain ⟨j, hj⟩ := List.mem_iff_getElem?.mp hn
  obtain ⟨k, hk⟩ := List.mem_iff_getElem?.mp hp
  obtain ⟨node, entry, hnode, -, hstands⟩ := hd.exists_stands hj
  obtain ⟨i', hat, hmade⟩ := exists_inputSocket hj hnode hk
  obtain rfl := Option.some.inj (hi.symm.trans (h.wellFormed.socketOf?_of_madeFrom hmade))
  obtain ⟨socket, hsocket, rfl, rfl⟩ := hmade
  have hinput := hstands.input hat
  rw [hs] at hinput
  split at hinput
  · cases hinput
    have hin := ((h.offered n hn).inputs _ hp).1
    have hsupplied := hd.supplied hsocket hs
    rw [if_pos (by simp [SnapshotSocket.isInput, hin])] at hsupplied
    obtain ⟨type', htype', socket', hsocket', hport⟩ := hd.represented.inputType (copies_ofTree t) hd.standing.size
      hd.typed.toNumbered hs
    obtain rfl := Option.some.inj (hsocket.symm.trans hsocket')
    obtain rfl := Option.some.inj (htype.symm.trans hport)
    exact ⟨_, socket, rfl, hsocket, hj, rfl, hin, htype', hsupplied⟩
  · cases hinput

theorem exists_operation_entry (hd : Completed (ofTree t) {} d) {op : Operation} (hn : t.nodes.values[j]? = some n)
    (hop : (n.idname, op) ∈ Operation.ofNodeTypes) : ∃ entry node, d.builder.nodes[j]? = some entry ∧
      (ofTree t).nodes[j]? = some node ∧ Stands (ofTree t) {} d node entry ∧ entry.function = op.function ∧
        entry.inputCount = n.inputs.length ∧ entry.outputCount = n.outputs.length := by
  obtain ⟨node, entry, hnode, he, hstands⟩ := hd.exists_stands hn
  obtain ⟨hid, hin, hout⟩ := (copies_ofTree t).sockets hn hnode
  have hname : n.idname ∈ Inserters.builtinNames := by
    rw [Inserters.builtinNames, Inserters.builtinFunctions_eq, List.map_map]
    exact List.mem_map_of_mem (f := Prod.fst) hop
  have hsize := hstands.inserts.size_eq (hid ▸ hname)
  refine ⟨entry, node, he, hnode, hstands, ?_, by rw [NodeEntry.inputCount, hsize.1, hin.length_eq],
    by rw [NodeEntry.outputCount, hsize.2, hout.length_eq]⟩
  have hinserts := hstands.inserts
  generalize entry.function = f at hinserts
  cases hinserts with
  | builtin hmem => exact Inserters.eq_function_of_mem (hid ▸ hmem) hop
  | results hb => exact absurd (hid ▸ hname) hb
  | arguments hb => exact absurd (hid ▸ hname) hb

theorem Functional.exists_argument (h : t.Functional) (hgen : t.Generates {} d lowered sockets g p)
    (hn : n ∈ t.nodes.values) (hname : n.idname = Idname.functionInput) {port : Port}
    (hp : n.outputs.dropLast[k]? = some port) :
    ∃ i s, (ofTree t).socketOf? port.id = some i ∧ d.socket? i = some s ∧ g.inputs[k]? = some s := by
  have hd := hgen.lowers.completed
  obtain ⟨j, hj⟩ := List.mem_iff_getElem?.mp hn
  rw [List.getElem?_dropLast, Option.ite_none_right_eq_some] at hp
  obtain ⟨hlt, hp⟩ := hp
  obtain ⟨node, -, hnode, -⟩ := hd.exists_stands hj
  obtain ⟨i, hat, hmade⟩ := exists_outputSocket hj hnode hp
  obtain ⟨hid, -, hout⟩ := (copies_ofTree t).sockets hj hnode
  have hdrop : node.outputs.dropLast[k]? = some i := by
    rw [List.getElem?_dropLast, if_pos (hout.length_eq ▸ hlt), hat]
  obtain ⟨s, hs, hstands⟩ := exists_getElem?_side hgen.lowers.numbered (hd.single _ (by simp)) hgen.sides.1 hnode
    (hid.trans hname) hdrop
  exact ⟨i, s, h.wellFormed.socketOf?_of_madeFrom hmade, (hgen.lowers.socket? i).symm.trans hstands, hs⟩

/-! ## What ports mean, and what their sockets compute -/

theorem Generates.suits_output (hgen : t.Generates {} d lowered sockets g p) (ha : Typed args p.function.inputs)
    {o : OutputSocket} (ho : d.socket? i = some (.output o))
    (hv : g.socketValue hgen.frozen.wellFounded (args.map some) (.output o) = .ok v) :
    d.builder.outputType o = .ok v.type := by
  obtain ⟨d?, p?, hmade⟩ := FunctionGraph.exists_made hgen.function
  have hcontains : g.graph.contains (.output o) := by
    rw [hgen.graph_eq]
    exact hgen.lowers.contains ((hgen.lowers.socket? i).trans ho)
  obtain ⟨v', hv', hsuits⟩ := FunctionGraph.exists_socketValue hgen.frozen.wellFounded hgen.frozen hgen.standard
    (hmade.signature.accepts ha) hcontains
  rw [hv, Except.ok.injEq] at hv'
  subst hv'
  exact hgen.outputType_eq_ok_iff.mp (FunctionGraph.suits_output_iff.mp hsuits)

section

variable (h : t.Functional) (hgen : t.Generates {} d lowered sockets g p) (ha : Typed args p.function.inputs)
include h ha

/-- What a port means is what its data socket computes. -/
theorem Valued.socketValue (hv : t.Valued args e v) : ∀ i s, (ofTree t).socketOf? e.port = some i →
    d.socket? i = some s → g.socketValue hgen.frozen.wellFounded (args.map some) s = .ok v := by
  have hd := hgen.lowers.completed
  -- by induction on how the value is read off the tree, with the stages of generation in one case each
  induction hv with
  | @argument n port k v hn hid hp hv =>
      intro i s hi hs
      obtain ⟨i', s', hi', hs', hargument⟩ := h.exists_argument hgen hn hid hp
      obtain rfl := Option.some.inj (hi.symm.trans hi')
      obtain rfl := Option.some.inj (hs.symm.trans hs')
      exact hgen.socketValue_argument hargument hv
  | @connected n port c type v hn hp htype hc _ ih =>
      intro i s hi hs
      obtain ⟨input, socket, rfl, hsocket, -, rfl, -, hinput, hsupplied⟩ := h.supplied_port hd hn hp htype hi hs
      obtain ⟨a, o, ha', ho, hsources⟩ := h.sources_of_brings hd hsocket hc rfl
      rw [hsources] at hsupplied
      have hvalue := ih a _ ha' ho
      exact hgen.socketValue_carries hsupplied hinput (hgen.suits_output ha ho hvalue) hvalue
  | @resting n port type hn hp htype hnone =>
      intro i s hi hs
      obtain ⟨input, socket, rfl, hsocket, hnode, rfl, hin, hinput, hsupplied⟩ := h.supplied_port hd hn hp htype hi hs
      rw [h.sources_eq_nil hd hsocket hin hnode hnone] at hsupplied
      obtain ⟨type', htype', hconstant⟩ := hsupplied
      rw [hinput] at htype'
      cases htype'
      rw [portValue_eq_resting] at hconstant
      exact hgen.socketValue_constant hconstant
  | @operation n op xs ys q k v hn hop hlen _ hys hq hv ih =>
      intro i s hi hs
      obtain ⟨j, hj⟩ := List.mem_iff_getElem?.mp hn
      obtain ⟨entry, node, he, hnode, hstands, hf, hcount, -⟩ := exists_operation_entry hd hj hop
      obtain ⟨i', hat, hmade⟩ := exists_outputSocket hj hnode hq
      obtain rfl := Option.some.inj (hi.symm.trans (h.wellFormed.socketOf?_of_madeFrom hmade))
      rw [hstands.output hat] at hs
      split at hs
      · cases hs
        refine hgen.socketValue_operation he hf hys (fun m x hx => ?_) hv
        have hm : m < n.inputs.length := hlen ▸ (List.getElem?_eq_some_iff.mp hx).1
        have hport := List.getElem?_eq_getElem hm
        obtain ⟨input, hat', hmade'⟩ := exists_inputSocket hj hnode hport
        exact ih m _ x hport hx input _ (h.wellFormed.socketOf?_of_madeFrom hmade')
          ((hstands.input hat').trans (if_pos (hcount ▸ hm)))
      · cases hs

end

/-! ## All ports have values -/

/-- An input has a value as soon as the outputs have one that lead to it. -/
theorem exists_valued_input (hn : n ∈ t.nodes.values) {port : Port} (hp : port ∈ n.inputs) {type : ValueType}
    (htype : port.type.valueType? = some type)
    (hsource : ∀ c, t.Brings c ⟨n.id, port.id⟩ → ∃ v, t.Valued args c.source v) :
    ∃ v, t.Valued args ⟨n.id, port.id⟩ v := by
  by_cases hc : ∃ c, t.Brings c ⟨n.id, port.id⟩
  · obtain ⟨c, hc⟩ := hc
    obtain ⟨v, hv⟩ := hsource c hc
    exact ⟨_, .connected hn hp htype hc hv⟩
  · exact ⟨_, .resting hn hp htype (not_exists.mp hc)⟩

section

variable (h : t.Functional) (hgen : t.Generates {} d lowered sockets g p) (ha : Typed args p.function.inputs)
include h hgen ha

theorem Functional.exists_apply {op : Operation} (hn : t.nodes.values[j]? = some n)
    (hop : (n.idname, op) ∈ Operation.ofNodeTypes) {xs : List Value}
    (hxs : List.Forall₂ (fun (port : Port) x => t.Valued args ⟨n.id, port.id⟩ x) n.inputs xs) :
    ∃ ys, op.apply xs = some ys ∧ ys.length = n.outputs.length := by
  obtain ⟨entry, node, he, hnode, hstands, hf, hcount, hcount'⟩ :=
    exists_operation_entry hgen.lowers.completed hn hop
  obtain ⟨d?, p?, hmade⟩ := FunctionGraph.exists_made hgen.function
  obtain ⟨xs', ys, hperforms⟩ := FunctionGraph.exists_performs hgen.frozen.wellFounded hgen.frozen hgen.standard
    (hmade.signature.accepts ha) ⟨j⟩ entry op (hgen.node_eq ▸ he) hf
  have hvalues : List.Forall₂ (fun s v => g.socketValue hgen.frozen.wellFounded (args.map some) (.input s) = .ok v)
      entry.inputSockets xs := by
    refine forall₂_iff_getElem?.mpr ⟨?_, fun {m s} hs => ?_⟩
    · rw [NodeEntry.length_inputSockets, hcount, hxs.length_eq]
    · have hm : m < entry.inputCount := by
        rw [← NodeEntry.length_inputSockets]
        exact (List.getElem?_eq_some_iff.mp hs).1
      rw [NodeEntry.inputSockets_getElem? hm, Option.some.injEq] at hs
      subst hs
      have hport := List.getElem?_eq_getElem (hcount ▸ hm)
      obtain ⟨x, hx, hvalued⟩ := (forall₂_iff_getElem?.mp hxs).2 hport
      obtain ⟨i, hat, hmade⟩ := exists_inputSocket hn hnode hport
      exact ⟨x, hx, hvalued.socketValue h hgen ha i _ (h.wellFormed.socketOf?_of_madeFrom hmade)
        ((hstands.input hat).trans (if_pos hm))⟩
  have hsame : xs' = xs := List.right_unique_forall₂' (fun _ _ _ hv hw => Except.ok.inj (hv.symm.trans hw))
    hperforms.inputs hvalues
  refine ⟨ys, hsame ▸ hperforms.apply, ?_⟩
  rw [hperforms.typed.length_eq, ← hcount', NodeEntry.outputCount, hf]

/-- An output has a value as soon as the inputs of its node have values. -/
theorem Functional.exists_valued_output (hn : n ∈ t.nodes.values) {q : Port} (hq : q ∈ n.outputs)
    (hdata : q.type ≠ .extend) (hin : ∀ port ∈ n.inputs, ∀ type, port.type.valueType? = some type →
      ∃ v, t.Valued args ⟨n.id, port.id⟩ v) : ∃ v, t.Valued args ⟨n.id, q.id⟩ v := by
  obtain ⟨j, hj⟩ := List.mem_iff_getElem?.mp hn
  obtain ⟨k, hk⟩ := List.mem_iff_getElem?.mp hq
  cases (h.offered n hn).kind with
  | @operation f hf hfin hfout =>
      obtain ⟨op, hop, rfl⟩ := Inserters.exists_ofNodeTypes hf
      obtain ⟨xs, hxs⟩ := exists_forall₂ (l := n.inputs) (R := fun port x => t.Valued args ⟨n.id, port.id⟩ x)
        fun port hport => by
          have hmem := List.mem_map_of_mem (f := fun p : Port => p.type.valueType?) hport
          rw [hfin] at hmem
          obtain ⟨parameter, -, htype⟩ := List.mem_map.mp hmem
          exact hin port hport _ htype.symm
      obtain ⟨ys, hys, hlen⟩ := h.exists_apply hgen ha hj hop hxs
      have hv := List.getElem?_eq_getElem (hlen.symm ▸ (List.getElem?_eq_some_iff.mp hk).1)
      refine ⟨_, .operation hn hop hxs.length_eq.symm (fun i port x hport hx => ?_) hys hk hv⟩
      obtain ⟨x', hx', hvalued⟩ := (forall₂_iff_getElem?.mp hxs).2 hport
      rw [hx, Option.some.injEq] at hx'
      exact hx' ▸ hvalued
  | results _ hnil => simp [hnil] at hk
  | arguments hid _ hports _ =>
      have hdrop := getElem?_dropLast_of_ne_extend hports hk hdata
      obtain ⟨i, s, -, -, hs⟩ := h.exists_argument hgen hn hid hdrop
      obtain ⟨d?, p?, hmade⟩ := FunctionGraph.exists_made hgen.function
      obtain ⟨v, hv, -⟩ := (forall₂_iff_getElem?.mp (hmade.signature.accepts ha)).2 hs
      exact ⟨v, .argument hn hid hdrop hv⟩

theorem Functional.exists_valued (hn : n ∈ t.nodes.values) :
    (∀ port ∈ n.inputs, ∀ type, port.type.valueType? = some type → ∃ v, t.Valued args ⟨n.id, port.id⟩ v) ∧
      ∀ q ∈ n.outputs, q.type ≠ .extend → ∃ v, t.Valued args ⟨n.id, q.id⟩ v := by
  obtain ⟨rank, hrank⟩ := hgen.lowers.completed.typed.exists_ranked hgen.lowers.build
  obtain ⟨r, hr⟩ := h.exists_treeRank hgen.lowers.completed hrank
  -- by induction on the rank of the node: a connection comes from a node of lower rank
  induction hN : r n.id using Nat.strong_induction_on generalizing n with
  | _ N ih =>
      have hinputs : ∀ port ∈ n.inputs, ∀ type, port.type.valueType? = some type →
          ∃ v, t.Valued args ⟨n.id, port.id⟩ v := by
        intro port hp type htype
        refine exists_valued_input hn hp htype fun c ⟨hc, htarget, q, hq, hdata⟩ => ?_
        obtain ⟨q', -, hq', -, hdir, -⟩ := (h.wellFormed.joined c hc).compatible
        obtain rfl := h.wellFormed.eq_of_id hq.mem_ports hq'.mem_ports (hq.id_eq.trans hq'.id_eq.symm)
        obtain ⟨m, hm, hmem, hid⟩ := hq
        have hm' := OrderedMap.mem_values_of_get? hm
        have hout : q ∈ m.outputs := (List.mem_append.mp hmem).resolve_left fun hin => by
          rw [((h.offered m hm').inputs q hin).1] at hdir
          cases hdir
        have hlt := hr c hc
        rw [htarget, ← h.wellFormed.node_id hm, hN] at hlt
        obtain ⟨v, hv⟩ := (ih _ hlt hm' rfl).2 q hout hdata
        rw [h.wellFormed.node_id hm, hid] at hv
        exact ⟨v, hv⟩
      exact ⟨hinputs, fun q hq hdata => h.exists_valued_output hgen ha hn hq hdata hinputs⟩

end

/-! ## Results -/

theorem Functional.declared_type (h : t.Functional) (hn : n ∈ t.nodes.values)
    (hname : n.idname = Idname.functionOutput) {port : Port} (hp : n.inputs.dropLast[k]? = some port) :
    ∃ type, port.type.valueType? = some type := by
  cases (h.offered n hn).kind with
  | operation hf => exact absurd hname (Functional.ne_interface (List.mem_map_of_mem (f := Prod.fst) hf)).2
  | arguments hid =>
      rw [hname] at hid
      exact absurd hid (by decide)
  | @results types _ _ hports hdata =>
      rw [List.getElem?_dropLast, Option.ite_none_right_eq_some] at hp
      obtain ⟨hlt, hp⟩ := hp
      have hlen := congrArg List.length hports
      rw [List.length_map, List.length_append, List.length_singleton] at hlen
      have htype := congrArg (fun types => types[k]?) hports
      rw [List.getElem?_map, hp, Option.map_some, List.getElem?_append_left (by omega)] at htype
      exact Option.isSome_iff_exists.mp (hdata _ (List.mem_of_getElem? htype.symm))

/-- The results of a function come from the ports that declare them. -/
theorem Functional.forall₂_resultPorts (h : t.Functional) (hgen : t.Generates {} d lowered sockets g p) :
    List.Forall₂ (fun e s => ∃ n ∈ t.nodes.values, ∃ port ∈ n.inputs, e = ⟨n.id, port.id⟩ ∧
      (∃ type, port.type.valueType? = some type) ∧ ∃ i, (ofTree t).socketOf? port.id = some i ∧ d.socket? i = some s)
        t.resultPorts g.outputs := by
  have hlength := length_nodesOfType_ofTree t Idname.functionOutput
  have hside := hgen.sides.2
  generalize g.outputs = outputs at hside
  cases hside with
  | missing hnone =>
      rw [hnone, List.length_nil] at hlength
      rw [resultPorts, List.length_eq_zero_iff.mp hlength.symm]
      exact .nil
  | @node j node outputs _ hnode hid _ hall =>
      have hc := copies_ofTree t
      obtain ⟨n, hn⟩ : ∃ n, t.nodes.values[j]? = some n :=
        ⟨_, List.getElem?_eq_getElem (hc.size ▸ (Array.getElem?_eq_some_iff.mp hnode).1)⟩
      have hmem := List.mem_of_getElem? hn
      obtain ⟨hid', hin, -⟩ := hc.sockets hn hnode
      have hname : n.idname = Idname.functionOutput := hid'.symm.trans hid
      have honly : t.nodesOfType Idname.functionOutput = [n] := by
        have hof : n ∈ t.nodesOfType Idname.functionOutput := List.mem_filter.mpr ⟨hmem, by simp [hname]⟩
        obtain ⟨m, hm⟩ := List.length_eq_one_iff.mp (Nat.le_antisymm h.results (List.length_pos_of_mem hof))
        rw [hm, List.mem_singleton] at hof
        rw [hm, hof]
      rw [resultPorts, honly]
      simp only [List.head?_cons, Option.map_some, Option.getD_some]
      rw [List.forall₂_map_left_iff, forall₂_iff_getElem?]
      refine ⟨?_, fun {k port} hport => ?_⟩
      · rw [← hall.length_eq, List.length_dropLast, List.length_dropLast, hin.length_eq]
      · have hdata := h.declared_type hmem hname hport
        rw [List.getElem?_dropLast, Option.ite_none_right_eq_some] at hport
        obtain ⟨hlt, hport⟩ := hport
        obtain ⟨i, hat, socket, hs, -, rfl⟩ := (forall₂_iff_getElem?.mp hin.flip).2 hport
        have hdrop : node.inputs.dropLast[k]? = some i := by
          rw [List.getElem?_dropLast, if_pos (hin.length_eq ▸ hlt), hat]
        obtain ⟨s, hs', hstands⟩ := (forall₂_iff_getElem?.mp hall).2 hdrop
        exact ⟨s, hs', n, hmem, _, List.mem_of_getElem? hport, rfl, hdata, i, h.wellFormed.socketOf?_eq hs,
          (hgen.lowers.socket? i).symm.trans hstands⟩

/--
A function that is generated from a tree of offered nodes can be called on all arguments of its types,
and its results are the values of the ports that declare them.
-/
theorem edited_call_gives_values (h : t.Edited Edit.Offered)
    (harguments : (t.nodesOfType Idname.functionInput).length ≤ 1)
    (hresults : (t.nodesOfType Idname.functionOutput).length ≤ 1)
    (hgenerate : t.generate {} (.builtin {}) = .ok (some p)) : ∃ body, p.function.tupleCall? = some body ∧
      ∀ args, Typed args p.function.inputs → ∃ ys, Typed ys p.function.outputs ∧
        (∀ c, (runOn c (p.function.call body
          ⟨Tuple.filled p.function.inputs args, Tuple.new p.function.outputs⟩)).1 =
            .ok ⟨Tuple.new p.function.inputs, Tuple.filled p.function.outputs ys⟩) ∧
        List.Forall₂ (fun e y => ∀ v, t.Valued args e v ↔ v = y) t.resultPorts ys := by
  have hfunctional := h.functional harguments hresults
  obtain ⟨d, lowered, sockets, g, hgen⟩ := exists_generates hgenerate
  obtain ⟨d?, p?, hmade⟩ := FunctionGraph.exists_made hgen.function
  refine ⟨g.evaluate, hmade.tupleCall?, fun args ha => ?_⟩
  obtain ⟨ys, hys, htyped⟩ := hgen.exists_results ha
  refine ⟨ys, htyped, hgen.call_eq ha hys htyped, ?_⟩
  refine forall₂_join (hfunctional.forall₂_resultPorts hgen).flip hys ?_
  rintro s e y ⟨n, hn, port, hport, rfl, ⟨type, htype⟩, i, hi, hs⟩ hy v
  have hsocket {w : Value} (hw : t.Valued args ⟨n.id, port.id⟩ w) : w = y :=
    Except.ok.inj ((hw.socketValue hfunctional hgen ha i s hi hs).symm.trans hy)
  refine ⟨hsocket, ?_⟩
  rintro rfl
  obtain ⟨w, hw⟩ := (hfunctional.exists_valued hgen ha hn).1 port hport type htype
  exact hsocket hw ▸ hw

/-! The mixed sum gives the sum of its arguments, and the second one of them. -/

def numbersNode : Node := numbersType.instantiate (Supply.nodeId 0) fun i => Supply.portId i

def totalsNode : Node := totalsType.instantiate (Supply.nodeId 2) fun i => Supply.portId (6 + i)

theorem nodes_mixedSum : mixedSum.nodes.values = [numbersNode, sumNode 1, totalsNode] := by
  decide +kernel

theorem brings_mixedSum (number : Nat) {source target : Endpoint} {q : Port}
    (hc : (⟨Supply.connectionId number, source, target⟩ : Connection) ∈ mixedSum.connections.values)
    (hn : mixedSum.nodes.get? source.node = some n) (hq : q ∈ n.ports) (hid : q.id = source.port)
    (hdata : q.type ≠ .extend) : mixedSum.Brings ⟨Supply.connectionId number, source, target⟩ target :=
  ⟨hc, rfl, q, ⟨n, hn, hq, hid⟩, hdata⟩

theorem valued_numbers (x : Binary32) (i : Int32) :
    mixedSum.Valued [.float x, .int i] ⟨Supply.nodeId 0, Supply.portId 0⟩ (.float x) ∧
      mixedSum.Valued [.float x, .int i] ⟨Supply.nodeId 0, Supply.portId 1⟩ (.int i) := by
  have hn : numbersNode ∈ mixedSum.nodes.values := by
    rw [nodes_mixedSum]
    exact List.mem_cons_self
  exact ⟨.argument (p := ⟨.output "a" .float, Supply.portId 0⟩) (k := 0) hn rfl (by decide +kernel) rfl,
    .argument (p := ⟨.output "n" .int, Supply.portId 1⟩) (k := 1) hn rfl (by decide +kernel) rfl⟩

theorem valued_sum (x : Binary32) (i : Int32) : mixedSum.Valued [.float x, .int i]
    ⟨Supply.nodeId 1, Supply.portId 5⟩ (.float (BinaryOp.add.apply x (.ofInt i.toInt))) := by
  obtain ⟨ha, hb⟩ := valued_numbers x i
  have hn : sumNode 1 ∈ mixedSum.nodes.values := by
    rw [nodes_mixedSum]
    exact List.mem_cons_of_mem _ List.mem_cons_self
  have hfirst : mixedSum.Valued [.float x, .int i] ⟨Supply.nodeId 1, Supply.portId 3⟩ (.float x) :=
    .connected (p := ⟨Catalogue.floatInput "A", Supply.portId 3⟩) (v := .float x) hn
      (by decide +kernel) (rfl : PortType.float.valueType? = some .float) (brings_mixedSum 0 (q := ⟨.output "a" .float, Supply.portId 0⟩)
        (n := numbersNode) (by decide +kernel) (by decide +kernel) (by decide +kernel) rfl (by decide)) ha
  have hsecond : mixedSum.Valued [.float x, .int i] ⟨Supply.nodeId 1, Supply.portId 4⟩ (.float (.ofInt i.toInt)) :=
    .connected (p := ⟨Catalogue.floatInput "B", Supply.portId 4⟩) (v := .int i) hn
      (by decide +kernel) (rfl : PortType.float.valueType? = some .float) (brings_mixedSum 1 (q := ⟨.output "n" .int, Supply.portId 1⟩)
        (n := numbersNode) (by decide +kernel) (by decide +kernel) (by decide +kernel) rfl (by decide)) hb
  have happly : (Operation.arithmetic "Add Floats" .add).apply [.float x, .float (.ofInt i.toInt)] =
      some [.float (BinaryOp.add.apply x (.ofInt i.toInt))] := rfl
  refine .operation (q := ⟨.output "Result" .float, Supply.portId 5⟩) hn List.mem_cons_self rfl ?_ happly
    (by decide +kernel) List.getElem?_cons_zero
  intro m port value hport hvalue
  match m with
  | 0 =>
      cases hport
      cases hvalue
      exact hfirst
  | 1 =>
      cases hport
      cases hvalue
      exact hsecond
  | m + 2 => cases hvalue

theorem valued_totals (x : Binary32) (i : Int32) :
    mixedSum.Valued [.float x, .int i] ⟨Supply.nodeId 2, Supply.portId 6⟩
        (.float (BinaryOp.add.apply x (.ofInt i.toInt))) ∧
      mixedSum.Valued [.float x, .int i] ⟨Supply.nodeId 2, Supply.portId 7⟩ (.int i) := by
  have hn : totalsNode ∈ mixedSum.nodes.values := by
    rw [nodes_mixedSum]
    exact List.mem_cons_of_mem _ (List.mem_cons_of_mem _ List.mem_cons_self)
  constructor
  · exact .connected (p := ⟨.plain "sum" .float .input, Supply.portId 6⟩)
      (v := .float (BinaryOp.add.apply x (.ofInt i.toInt))) hn (by decide +kernel)
      (rfl : PortType.float.valueType? = some .float)
      (brings_mixedSum 2 (q := ⟨.output "Result" .float, Supply.portId 5⟩) (n := sumNode 1)
        (by decide +kernel) (by decide +kernel) (by decide +kernel) rfl (by decide)) (valued_sum x i)
  · exact .connected (p := ⟨.plain "n" .int .input, Supply.portId 7⟩) (v := .int i) hn
      (by decide +kernel) (rfl : PortType.int.valueType? = some .int)
      (brings_mixedSum 3 (q := ⟨.output "n" .int, Supply.portId 1⟩)
        (n := numbersNode) (by decide +kernel) (by decide +kernel) (by decide +kernel) rfl (by decide))
      (valued_numbers x i).2

theorem edited_call_gives_values_mixedSum : mixedSum.Edited Edit.Offered ∧ ∃ p body,
    mixedSum.generate {} (.builtin {}) = .ok (some p) ∧ p.function.tupleCall? = some body ∧
      Typed [.float .one, .int 3] p.function.inputs ∧
        (runOn {} (p.function.call body
          ⟨Tuple.filled p.function.inputs [.float .one, .int 3], Tuple.new p.function.outputs⟩)).1 =
            .ok ⟨Tuple.new p.function.inputs, Tuple.filled p.function.outputs [.float (.ofInt 4), .int 3]⟩ := by
  obtain ⟨p, hp⟩ := exists_generate_mixedSum
  obtain ⟨body, hbody, hcall⟩ := edited_call_gives_values edited_mixedSum (by decide +kernel) (by decide +kernel) hp
  have htyped : Typed [.float .one, .int 3] p.function.inputs := by
    rw [Typed, (mixedSum_signature hp).1]
    exact .cons rfl (.cons rfl .nil)
  obtain ⟨ys, -, hrun, hvalues⟩ := hcall _ htyped
  have hports : mixedSum.resultPorts =
      [⟨Supply.nodeId 2, Supply.portId 6⟩, ⟨Supply.nodeId 2, Supply.portId 7⟩] := by
    decide +kernel
  rw [hports] at hvalues
  rcases hvalues with _ | ⟨hsum, _ | ⟨hn, _ | _⟩⟩
  obtain ⟨htotal, hsame⟩ := valued_totals .one 3
  have hfour : BinaryOp.add.apply .one (.ofInt (3 : Int32).toInt) = .ofInt 4 := by decide +kernel
  rw [hfour] at htotal
  obtain rfl := (hsum _).mp htotal
  obtain rfl := (hn _).mp hsame
  exact ⟨edited_mixedSum, p, body, hp, hbody, htyped, hrun {}⟩

end Tree

end Nodeflow
