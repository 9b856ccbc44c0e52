import Nodeflow.Proofs.Generation.Function
import Nodeflow.Proofs.Tree.Offered

/-!
# Signatures as declared

The parameters of a tree's function are the ports that its input node declares, and the results those
of its output node: all ports but the placeholder, in order, whatever else is in the tree. The data
sockets of the interface are one for each of them.
-/

namespace Nodeflow

/-- A parameter has the name and the type of a declared port. -/
def Parameter.DeclaredAs (q : Parameter) (declared : String × PortType) : Prop :=
  q.name = declared.1 ∧ declared.2.valueType? = some q.type

section

variable {tree : Snapshot} {j : Nat} {numbers : List Nat} {parameters : List Parameter}

/-- The parameters of an interface node are its declared ports, without the placeholder. -/
theorem forall₂_declaredAs {ports : List Port} {declared : List (String × PortType)}
    (hports : ∃ last, ports.map (fun p => (p.name, p.type)) = declared ++ [last])
    (hmade : List.Forall₂ (tree.MadeFrom j) numbers ports)
    (hp : List.Forall₂ (Lower.Declares tree) numbers.dropLast parameters) :
    List.Forall₂ Parameter.DeclaredAs parameters declared := by
  have hdrop : declared = ports.dropLast.map fun p => (p.name, p.type) := by
    obtain ⟨last, hports⟩ := hports
    rw [List.map_dropLast, hports, List.dropLast_concat]
  have hmade' : List.Forall₂ (tree.MadeFrom j) numbers.dropLast ports.dropLast := by
    rw [List.dropLast_eq_take, List.dropLast_eq_take, hmade.length_eq]
    exact List.forall₂_take _ hmade
  rw [hdrop, List.forall₂_map_right_iff]
  refine forall₂_join hp hmade' fun i q p hq hi => ?_
  obtain ⟨socket, hs, hname, htype⟩ := hq
  obtain ⟨socket', hs', -, rfl⟩ := hi
  obtain rfl := Option.some.inj (hs.symm.trans hs')
  exact ⟨hname.symm, htype⟩

end

namespace Lower

variable {tree : Snapshot} {config : Config} {node : SnapshotNode} {f : Function}

theorem Inserts.eq_functionInput (h : Inserts tree config node f) (hid : node.idname = Idname.functionInput)
    (hout : config.outputNode = Idname.functionOutput) : ∃ parameters, f = Builtin.functionInput parameters ∧
      List.Forall₂ (Declares tree) node.outputs.dropLast parameters := by
  cases h with
  | builtin hf =>
      have hmem : Idname.functionInput ∈ Inserters.builtinNames := hid ▸ List.mem_map_of_mem (f := Prod.fst) hf
      exact absurd hmem (by decide)
  | results hb hn hp => exact absurd (hid.symm.trans (hn.trans hout)) (by decide)
  | arguments hb ho hn hp => exact ⟨_, rfl, hp⟩

theorem Inserts.eq_functionOutput (h : Inserts tree config node f) (hid : node.idname = Idname.functionOutput)
    (hin : config.inputNode = Idname.functionInput) : ∃ parameters, f = Builtin.functionOutput parameters ∧
      List.Forall₂ (Declares tree) node.inputs.dropLast parameters := by
  cases h with
  | builtin hf =>
      have hmem : Idname.functionOutput ∈ Inserters.builtinNames := hid ▸ List.mem_map_of_mem (f := Prod.fst) hf
      exact absurd hmem (by decide)
  | results hb hn hp => exact ⟨_, rfl, hp⟩
  | arguments hb ho hn hp => exact absurd (hid.symm.trans (hn.trans hin)) (by decide)

end Lower

namespace Snapshot

open Lower LoweredTree

variable {tree : Snapshot} {config : Config} {d : Draft} {t : LoweredTree} {n : Nat} {node : SnapshotNode}
  {entry : NodeEntry} {ss : List DataSocket}

/-- The data sockets of a side of an interface node are those of the node that stands for it. -/
theorem Lowers.forall₂_wrap (h : Lowers tree config d t) {numbers : List Nat} {count : Nat} {w : Nat → DataSocket}
    (hstands : ∀ {k i : Nat}, numbers[k]? = some i → d.socket? i = if k < count then some (w k) else none)
    (hs : List.Forall₂ (fun i s => t.socket? i = some s) numbers.dropLast ss) :
    ∀ {k : Nat} {s : DataSocket}, ss[k]? = some s → k < count ∧ s = w k := by
  intro k s hk
  obtain ⟨i, hi, hsocket⟩ := (forall₂_iff_getElem?.mp hs.flip).2 hk
  have hlt := (List.getElem?_eq_some_iff.mp hi).1
  rw [List.length_dropLast] at hlt
  rw [List.getElem?_dropLast, if_pos hlt] at hi
  rw [h.socket?, hstands hi] at hsocket
  split at hsocket
  · cases hsocket
    exact ⟨‹_›, rfl⟩
  · cases hsocket

theorem Lowers.parameter_input (h : Lowers tree config d t) (hn : d.builder.nodes[n]? = some entry) {k : Nat}
    {q : Parameter} (hq : entry.function.inputs[k]? = some q) :
    t.graph.parameter (.input ⟨entry.firstInput + k⟩) = .ok q := by
  rw [← h.nodes_eq] at hn
  obtain ⟨origin, hat⟩ := h.frozen.toNumbered.input_at hn (Array.getElem?_eq_some_iff.mp hq).1
  exact Wiring.parameter_input_eq_ok_iff.mpr ⟨_, entry, hat, hn, hq⟩

theorem Lowers.parameter_output (h : Lowers tree config d t) (hn : d.builder.nodes[n]? = some entry) {k : Nat}
    {q : Parameter} (hq : entry.function.outputs[k]? = some q) :
    t.graph.parameter (.output ⟨entry.firstOutput + k⟩) = .ok q := by
  rw [← h.nodes_eq] at hn
  obtain ⟨targets, hat⟩ := h.frozen.toNumbered.output_at hn (Array.getElem?_eq_some_iff.mp hq).1
  exact Wiring.parameter_output_eq_ok_iff.mpr ⟨_, entry, hat, hn, hq⟩

theorem Lowers.side_cases (h : Lowers tree config d t) {idname : String} :
    (Side t tree idname SnapshotNode.outputs ss → ∀ s ∈ ss, ∃ o, s = .output o) ∧
      (Side t tree idname SnapshotNode.inputs ss → ∀ s ∈ ss, ∃ i, s = .input i) := by
  constructor
  · intro hside s hs
    cases hside with
    | missing => cases hs
    | node _ hn _ _ hall =>
        obtain ⟨entry, -, hstands⟩ := h.completed.represented _ _ hn
        obtain ⟨k, hk⟩ := List.mem_iff_getElem?.mp hs
        exact ⟨_, (h.forall₂_wrap (w := fun k => .output ⟨entry.firstOutput + k⟩) hstands.output hall hk).2⟩
  · intro hside s hs
    cases hside with
    | missing => cases hs
    | node _ hn _ _ hall =>
        obtain ⟨entry, -, hstands⟩ := h.completed.represented _ _ hn
        obtain ⟨k, hk⟩ := List.mem_iff_getElem?.mp hs
        exact ⟨_, (h.forall₂_wrap (w := fun k => .input ⟨entry.firstInput + k⟩) hstands.input hall hk).2⟩

/-- The parameters of the data sockets that one side of an interface node stands for are those declared there. -/
theorem Lowers.declared (h : Lowers tree config d t) {numbers : List Nat} {count : Nat} {wrap : Nat → DataSocket}
    {qs parameters : List Parameter} {ports : List Port} {declared : List (String × PortType)}
    (hstands : ∀ {k i : Nat}, numbers[k]? = some i → d.socket? i = if k < count then some (wrap k) else none)
    (hs : List.Forall₂ (fun i s => t.socket? i = some s) numbers.dropLast ss)
    (hqs : List.Forall₂ (fun s q => t.graph.parameter s = .ok q) ss qs)
    (hparameter : ∀ {k : Nat} {q : Parameter}, parameters[k]? = some q → t.graph.parameter (wrap k) = .ok q)
    (hp : List.Forall₂ (Declares tree) numbers.dropLast parameters)
    (hmade : List.Forall₂ (tree.MadeFrom n) numbers ports)
    (hports : ∃ last, ports.map (fun p => (p.name, p.type)) = declared ++ [last]) :
    List.Forall₂ Parameter.DeclaredAs qs declared := by
  have hlength : ss.length = parameters.length := hs.length_eq.symm.trans hp.length_eq
  have hparameters : List.Forall₂ (fun s q => t.graph.parameter s = .ok q) ss parameters := by
    refine forall₂_iff_getElem?.mpr ⟨hlength, fun {k s} hk => ?_⟩
    obtain ⟨q, hq⟩ : ∃ q, parameters[k]? = some q :=
      ⟨_, List.getElem?_eq_getElem (hlength ▸ (List.getElem?_eq_some_iff.mp hk).1)⟩
    obtain ⟨-, rfl⟩ := h.forall₂_wrap hstands hs hk
    exact ⟨q, hq, hparameter hq⟩
  have heq : qs = parameters := by
    refine List.forall₂_eq_eq_eq ▸ forall₂_join hqs hparameters fun s q q' hq hq' => ?_
    exact Except.ok.inj (hq.symm.trans hq')
  exact heq ▸ forall₂_declaredAs hports hmade hp

end Snapshot

namespace Tree

open Snapshot Lower LoweredTree

variable {t : Tree} {config : Config} {d : Draft} {lowered : LoweredTree} {sockets : InterfaceSockets}
  {g : FunctionGraph} {p : Package}

/-- The parameters of one side are its declared ports, with a data socket for each, in order. -/
structure SignatureSide (t : Tree) (graph : DataGraph) (idname : String)
    (type? : List (String × PortType) → Option NodeType) (sockets : List DataSocket) (parameters : List Parameter) :
    Prop where
  named : List.Forall₂ (fun s q => graph.parameter s = .ok q) sockets parameters
  nodup : sockets.Nodup
  declared : ∀ n ∈ t.nodes.values, ∀ type declared, type? declared = some type → n.OfType type →
    List.Forall₂ Parameter.DeclaredAs parameters declared
  missing : (∀ n ∈ t.nodes.values, n.idname ≠ idname) → sockets = [] ∧ parameters = []

theorem Generates.exists_stands (hgen : t.Generates config d lowered sockets g p) {n : Node} (hn : n ∈ t.nodes.values)
    {idname : String} (hid : n.idname = idname) (hinterface : idname ∈ [config.inputNode, config.outputNode]) :
    ∃ j node entry, (ofTree t).nodes[j]? = some node ∧ (ofTree t).nodesOfType idname = [j] ∧ node.idname = n.idname ∧
      d.builder.nodes[j]? = some entry ∧ Stands (ofTree t) config d node entry ∧
      List.Forall₂ ((ofTree t).MadeFrom j) node.inputs n.inputs ∧
      List.Forall₂ ((ofTree t).MadeFrom j) node.outputs n.outputs := by
  have hc := copies_ofTree t
  obtain ⟨j, hj⟩ := List.mem_iff_getElem?.mp hn
  obtain ⟨first, hnode, -⟩ := hc.node hj
  obtain ⟨entry, hentry, hstands⟩ := hgen.lowers.completed.represented _ _ hnode
  obtain ⟨hname, hins, houts⟩ := hc.sockets hj hnode
  have hsingle := hgen.lowers.numbered.nodesOfType_eq_singleton (hgen.lowers.completed.single idname hinterface)
    hnode (hname.trans hid)
  exact ⟨j, _, entry, hnode, hsingle, hname, hentry, hstands, hins, houts⟩

theorem side_eq_nil {idname : String} {side : SnapshotNode → List Nat} {ss : List DataSocket}
    (hside : Side lowered (ofTree t) idname side ss) (hnone : ∀ n ∈ t.nodes.values, n.idname ≠ idname) : ss = [] := by
  cases hside with
  | missing => rfl
  | node hhead =>
      obtain ⟨n, hn, hid⟩ := (mem_nodesOfType_ofTree t).mp (List.mem_of_mem_head? hhead)
      exact absurd hid (hnone n (List.mem_of_getElem? hn))

/-- The sockets of a side that is not missing stand for those of the only node of its type. -/
theorem forall₂_side {idname : String} {side : SnapshotNode → List Nat} {ss : List DataSocket} {j : Nat}
    {node : SnapshotNode} (hside : Side lowered (ofTree t) idname side ss)
    (honly : (ofTree t).nodesOfType idname = [j]) (hnode : (ofTree t).nodes[j]? = some node) :
    List.Forall₂ (fun i s => lowered.socket? i = some s) (side node).dropLast ss := by
  cases hside with
  | missing hnone => simp [hnone] at honly
  | node hhead hn _ _ hs =>
      rw [honly, List.head?_cons, Option.some.injEq] at hhead
      subst hhead
      obtain rfl := Option.some.inj (hnode.symm.trans hn)
      exact hs

theorem signatureSide {idname : String} {side : SnapshotNode → List Nat} {ss : List DataSocket}
    {qs : List Parameter} {type? : List (String × PortType) → Option NodeType}
    (hside : Side lowered (ofTree t) idname side ss)
    (hqs : List.Forall₂ (fun s q => lowered.graph.parameter s = .ok q) ss qs)
    (hdeclared : ∀ n ∈ t.nodes.values, ∀ type declared, type? declared = some type → n.OfType type →
      List.Forall₂ Parameter.DeclaredAs qs declared) : t.SignatureSide lowered.graph idname type? ss qs := by
  refine ⟨hqs, nodup_side hside, hdeclared, fun hnone => ?_⟩
  have hnil := side_eq_nil hside hnone
  subst hnil
  exact ⟨rfl, List.forall₂_nil_left_iff.mp hqs⟩

theorem Generates.arguments (hgen : t.Generates config d lowered sockets g p)
    (hin : config.inputNode = Idname.functionInput) (hout : config.outputNode = Idname.functionOutput)
    (hqs : List.Forall₂ (fun s q => lowered.graph.parameter s = .ok q) sockets.inputs p.function.inputs.toList) :
    t.SignatureSide lowered.graph Idname.functionInput Catalogue.standard.functionInput? sockets.inputs
      p.function.inputs.toList := by
  have hside := ((interface_eq_ok_iff hgen.lowers.numbered).mp hgen.interface).1
  rw [hin] at hside
  refine signatureSide hside hqs fun n hn type declared htype hof => ?_
  obtain ⟨hid, -, hports⟩ := Catalogue.functionInput?_eq htype
  have hid := hof.idname.trans hid
  obtain ⟨j, node, entry, hnode, honly, hname, hentry, hstands, -, hmade⟩ := hgen.exists_stands hn hid (by simp [hin])
  obtain ⟨parameters, hf, hp⟩ := hstands.inserts.eq_functionInput (hname.trans hid) hout
  refine hgen.lowers.declared hstands.output (forall₂_side hside honly hnode) hqs (fun hq => ?_) hp hmade
    ⟨("", .extend), ?_⟩
  · refine hgen.lowers.parameter_output hentry ?_
    simpa [hf, Builtin.functionInput] using hq
  · rw [hof.map_outputs (f := fun p => (p.name, p.type)) fun _ => rfl, hports]
    simp [PortSpec.plain, PortSpec.placeholder, Function.comp_def]

theorem Generates.results (hgen : t.Generates config d lowered sockets g p)
    (hin : config.inputNode = Idname.functionInput) (hout : config.outputNode = Idname.functionOutput)
    (hqs : List.Forall₂ (fun s q => lowered.graph.parameter s = .ok q) sockets.outputs p.function.outputs.toList) :
    t.SignatureSide lowered.graph Idname.functionOutput Catalogue.standard.functionOutput? sockets.outputs
      p.function.outputs.toList := by
  have hside := ((interface_eq_ok_iff hgen.lowers.numbered).mp hgen.interface).2
  rw [hout] at hside
  refine signatureSide hside hqs fun n hn type declared htype hof => ?_
  obtain ⟨hid, -, hports⟩ := Catalogue.functionOutput?_eq htype
  have hid := hof.idname.trans hid
  obtain ⟨j, node, entry, hnode, honly, hname, hentry, hstands, hmade, -⟩ := hgen.exists_stands hn hid (by simp [hout])
  obtain ⟨parameters, hf, hp⟩ := hstands.inserts.eq_functionOutput (hname.trans hid) hin
  refine hgen.lowers.declared hstands.input (forall₂_side hside honly hnode) hqs (fun hq => ?_) hp hmade
    ⟨("", .extend), ?_⟩
  · refine hgen.lowers.parameter_input hentry ?_
    simpa [hf, Builtin.functionOutput] using hq
  · rw [hof.map_inputs (f := fun p => (p.name, p.type)) fun _ => rfl, hports]
    simp [PortSpec.plain, PortSpec.placeholder, Function.comp_def]

/-- Whatever else a tree holds, the signature of its function is the one that its interface nodes declare. -/
theorem generated_signature (hin : config.inputNode = Idname.functionInput)
    (hout : config.outputNode = Idname.functionOutput) (h : t.generate config (.builtin config) = .ok (some p)) :
    ∃ lowered sockets, p.dataGraph? = some lowered ∧ lowered.interface (ofTree t) config = .ok sockets ∧
      FunctionGraph.new lowered.graph sockets.inputs sockets.outputs =
        .ok ⟨lowered.graph, sockets.inputs, sockets.outputs⟩ ∧
      t.SignatureSide lowered.graph Idname.functionInput Catalogue.standard.functionInput? sockets.inputs
        p.function.inputs.toList ∧ (∀ s ∈ sockets.inputs, ∃ o, s = .output o) ∧
      t.SignatureSide lowered.graph Idname.functionOutput Catalogue.standard.functionOutput? sockets.outputs
        p.function.outputs.toList ∧ ∀ s ∈ sockets.outputs, ∃ i, s = .input i := by
  obtain ⟨d, lowered, sockets, g, hgen⟩ := exists_generates h
  obtain ⟨d?, p?, hmade⟩ := FunctionGraph.exists_made hgen.function
  have hsignature := hmade.signature
  rw [hgen.graph_eq] at hsignature
  obtain ⟨hinputs, houtputs⟩ := (interface_eq_ok_iff hgen.lowers.numbered).mp hgen.interface
  exact ⟨lowered, sockets, hgen.dataGraph?, hgen.interface, hgen.lowers.functionGraph_eq hgen.interface,
    hgen.arguments hin hout hsignature.inputs, hgen.lowers.side_cases.1 hinputs,
    hgen.results hin hout hsignature.outputs, hgen.lowers.side_cases.2 houtputs⟩

/-! All names of a signature may be the same, and there may be inputs without links. -/

def namelessType : NodeType :=
  (Catalogue.standard.functionInput? [("", .float), ("", .int), ("", .float)]).getD default

def repeatedType : NodeType :=
  (Catalogue.standard.functionOutput? [("sum", .float), ("sum", .int)]).getD default

/-- A sum with a nameless summand, and a result that nothing leads to. -/
def namesakes : Tree :=
  [Edit.addNode (repeatedType.instantiate (Supply.nodeId 0) fun i => Supply.portId i),
    .addNode (sumNode 1),
    .addNode (namelessType.instantiate (Supply.nodeId 2) fun i => Supply.portId (6 + i)),
    .connectAt (Supply.connectionId 0) (Supply.nodeId 2) 1 (Supply.nodeId 1) 0,
    .connectAt (Supply.connectionId 1) (Supply.nodeId 1) 0 (Supply.nodeId 0) 0].foldl after { name := "namesakes" }

theorem exists_generate_namesakes : ∃ p, namesakes.generate {} (.builtin {}) = .ok (some p) := by
  have hsome : ((namesakes.generate {} (.builtin {})).toOption.bind id).isSome := by decide +kernel
  match h : namesakes.generate {} (.builtin {}) with
  | .ok (some p) => exact ⟨p, rfl⟩
  | .ok none | .error fault =>
      rw [h] at hsome
      cases hsome

theorem generated_signature_namesakes : ∃ p lowered sockets, namesakes.generate {} (.builtin {}) = .ok (some p) ∧
    p.dataGraph? = some lowered ∧ lowered.interface (ofTree namesakes) {} = .ok sockets ∧
    sockets.inputs.length = 3 ∧ sockets.inputs.Nodup ∧ (∀ s ∈ sockets.inputs, ∃ o, s = .output o) ∧
    List.Forall₂ Parameter.DeclaredAs p.function.inputs.toList [("", .float), ("", .int), ("", .float)] ∧
    List.Forall₂ Parameter.DeclaredAs p.function.outputs.toList [("sum", .float), ("sum", .int)] := by
  obtain ⟨p, hp⟩ := exists_generate_namesakes
  obtain ⟨lowered, sockets, hgraph, hsockets, -, hins, houtput, houts, -⟩ := generated_signature rfl rfl hp
  have hnameless : Catalogue.standard.functionInput? [("", .float), ("", .int), ("", .float)] = some namelessType := by
    decide +kernel
  have hrepeated : Catalogue.standard.functionOutput? [("sum", .float), ("sum", .int)] = some repeatedType := by
    decide +kernel
  have hparameters := hins.declared _ (by decide +kernel) _ _ hnameless
    (Node.ofType_instantiate namelessType (Supply.nodeId 2) (fun i => Supply.portId (6 + i)) "Function Input")
  have hresults := houts.declared _ (by decide +kernel) _ _ hrepeated
    (Node.ofType_instantiate repeatedType (Supply.nodeId 0) (fun i => Supply.portId i) "Function Output")
  exact ⟨p, lowered, sockets, hp, hgraph, hsockets, hins.named.length_eq.trans hparameters.length_eq, hins.nodup, houtput,
    hparameters, hresults⟩

end Tree

end Nodeflow
