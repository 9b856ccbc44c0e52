import Nodeflow.Proofs.Lowering.Inserting
import Nodeflow.Proofs.Tree.Editing

/-!
# Trees of offered nodes

The catalogue offers the builtin node types, and the interface nodes of functions whose parameters
and results carry data. A tree of such nodes stays one when default values change.
-/

namespace Nodeflow

/-- What stays of a port when its default value changes, whichever node it is on. -/
def PortSpec.outline (p : PortSpec) : PortSpec := { p with defaultValue := none }

namespace Catalogue

/-- The types of the nodes that a function is built from. -/
inductive Offers : NodeType → Prop
  | operation {type : NodeType} (h : type ∈ standardTypes) (hin : type.idname ≠ Idname.functionInput)
      (hout : type.idname ≠ Idname.functionOutput) : Offers type
  | arguments {type : NodeType} {parameters : List (String × PortType)}
      (h : standard.functionInput? parameters = some type) (hdata : ∀ p ∈ parameters, p.2.valueType?.isSome) :
      Offers type
  | results {type : NodeType} {parameters : List (String × PortType)}
      (h : standard.functionOutput? parameters = some type) (hdata : ∀ p ∈ parameters, p.2.valueType?.isSome) :
      Offers type

theorem insertPort_concat {α : Type} {type : α → PortType} {port last : α} (ports : List α)
    (hlast : type last = .extend) : Nodeflow.insertPort type port (ports ++ [last]) = ports ++ [port, last] := by
  induction ports with
  | nil => simp [Nodeflow.insertPort, hlast]
  | cons first ports ih => cases ports <;> simpa [Nodeflow.insertPort] using ih

theorem withPorts_eq (type : NodeType) (direction : Direction) (ports : List PortSpec)
    (parameters : List (String × PortType)) :
    withPorts { type with outputs := ports ++ [.placeholder direction] } .output parameters =
        { type with outputs := ports ++ (parameters.map fun p => .plain p.1 p.2 .output) ++ [.placeholder direction] } ∧
      withPorts { type with inputs := ports ++ [.placeholder direction] } .input parameters =
        { type with inputs := ports ++ (parameters.map fun p => .plain p.1 p.2 .input) ++ [.placeholder direction] } := by
  induction parameters generalizing ports with
  | nil => simp [withPorts]
  | cons p parameters ih =>
      constructor
      · have hih := (ih (ports ++ [.plain p.1 p.2 .output])).1
        simp only [withPorts, List.foldl_cons, NodeType.insertPort, PortSpec.plain] at hih ⊢
        rw [insertPort_concat ports rfl]
        simpa using hih
      · have hih := (ih (ports ++ [.plain p.1 p.2 .input])).2
        simp only [withPorts, List.foldl_cons, NodeType.insertPort, PortSpec.plain] at hih ⊢
        rw [insertPort_concat ports rfl]
        simpa using hih

theorem get?_standard : standard.get? Idname.functionInput = some standardTypes[0] ∧
    standard.get? Idname.functionOutput = some standardTypes[1] := by
  decide +kernel

theorem functionInput?_eq {type : NodeType} {parameters : List (String × PortType)}
    (h : standard.functionInput? parameters = some type) : type.idname = Idname.functionInput ∧ type.inputs = [] ∧
      type.outputs = (parameters.map fun p => .plain p.1 p.2 .output) ++ [.placeholder .output] := by
  obtain ⟨base, hbase, rfl⟩ := Option.map_eq_some_iff.mp h
  obtain rfl := Option.some.inj (get?_standard.1.symm.trans hbase)
  have hports := (withPorts_eq standardTypes[0] .output [] parameters).1
  exact ⟨congrArg NodeType.idname hports, congrArg NodeType.inputs hports, congrArg NodeType.outputs hports⟩

theorem functionOutput?_eq {type : NodeType} {parameters : List (String × PortType)}
    (h : standard.functionOutput? parameters = some type) : type.idname = Idname.functionOutput ∧ type.outputs = [] ∧
      type.inputs = (parameters.map fun p => .plain p.1 p.2 .input) ++ [.placeholder .input] := by
  obtain ⟨base, hbase, rfl⟩ := Option.map_eq_some_iff.mp h
  obtain rfl := Option.some.inj (get?_standard.2.symm.trans hbase)
  have hports := (withPorts_eq standardTypes[1] .input [] parameters).2
  exact ⟨congrArg NodeType.idname hports, congrArg NodeType.outputs hports, congrArg NodeType.inputs hports⟩

theorem Offers.inputs {type : NodeType} (h : Offers type) {p : PortSpec} (hp : p ∈ type.inputs) :
    p.direction = .input ∧ p.multiConnect = false := by
  cases h with
  | operation h _ _ =>
      have hall : ∀ type ∈ standardTypes, ∀ p ∈ type.inputs, p.direction = .input ∧ p.multiConnect = false := by
        decide +kernel
      exact hall type h p hp
  | arguments h _ => simp [(functionInput?_eq h).2.1] at hp
  | results h _ =>
      rw [(functionOutput?_eq h).2.2, List.mem_append, List.mem_map, List.mem_singleton] at hp
      rcases hp with ⟨q, -, rfl⟩ | rfl <;> exact ⟨rfl, rfl⟩

theorem Offers.outputs {type : NodeType} (h : Offers type) {p : PortSpec} (hp : p ∈ type.outputs) :
    p.direction = .output := by
  cases h with
  | operation h _ _ =>
      have hall : ∀ type ∈ standardTypes, ∀ p ∈ type.outputs, p.direction = .output := by
        decide +kernel
      exact hall type h p hp
  | results h _ => simp [(functionOutput?_eq h).2.1] at hp
  | arguments h _ =>
      rw [(functionInput?_eq h).2.2, List.mem_append, List.mem_map, List.mem_singleton] at hp
      rcases hp with ⟨q, -, rfl⟩ | rfl <;> rfl

/-- The ports of a builtin node type are those of its function. -/
theorem exists_builtinFunction {type : NodeType} (h : type ∈ standardTypes) (hin : type.idname ≠ Idname.functionInput)
    (hout : type.idname ≠ Idname.functionOutput) : ∃ f, (type.idname, f) ∈ Inserters.builtinFunctions ∧
      type.inputs.map (fun p => p.type.valueType?) = f.inputs.toList.map (fun p => some p.type) ∧
      type.outputs.map (fun p => p.type.valueType?) = f.outputs.toList.map (fun p => some p.type) := by
  simp only [standardTypes, List.mem_cons, List.not_mem_nil, or_false] at h
  rcases h with rfl | rfl | rfl | rfl | rfl | rfl | rfl | rfl | rfl | rfl | rfl
  · exact absurd rfl hin
  · exact absurd rfl hout
  · exact ⟨Builtin.addFloats, List.mem_of_getElem? (i := 0) rfl, rfl, rfl⟩
  · exact ⟨Builtin.subtractFloats, List.mem_of_getElem? (i := 1) rfl, rfl, rfl⟩
  · exact ⟨Builtin.multiplyFloats, List.mem_of_getElem? (i := 2) rfl, rfl, rfl⟩
  · exact ⟨Builtin.divideFloats, List.mem_of_getElem? (i := 3) rfl, rfl, rfl⟩
  · exact ⟨Builtin.combineVector, List.mem_of_getElem? (i := 4) rfl, rfl, rfl⟩
  · exact ⟨Builtin.separateVector, List.mem_of_getElem? (i := 5) rfl, rfl, rfl⟩
  · exact ⟨Builtin.switchFloat, List.mem_of_getElem? (i := 6) rfl, rfl, rfl⟩
  · exact ⟨Builtin.floatListSum, List.mem_of_getElem? (i := 7) rfl, rfl, rfl⟩
  · exact ⟨Builtin.floatRange, List.mem_of_getElem? (i := 8) rfl, rfl, rfl⟩

end Catalogue

namespace Node

variable {n : Node} {type : NodeType}

/-- A node has the ports of a type, up to their identifiers and default values. -/
structure OfType (n : Node) (type : NodeType) : Prop where
  idname : n.idname = type.idname
  inputs : n.inputs.map (fun p => p.toPortSpec.outline) = type.inputs.map PortSpec.outline
  outputs : n.outputs.map (fun p => p.toPortSpec.outline) = type.outputs.map PortSpec.outline

theorem ofType_instantiate (type : NodeType) (id : NodeId) (portId : Nat → PortId) (name : String) :
    ({ type.instantiate id portId with name } : Node).OfType type := by
  have hports (ports : List PortSpec) (f : Nat → PortId) :
      (ports.zipIdx.map fun pair => (⟨pair.1, f pair.2⟩ : Port)).map (fun p => p.toPortSpec.outline) =
        ports.map PortSpec.outline := by
    rw [List.map_map]
    conv_rhs => rw [← List.zipIdx_map_fst 0 ports, List.map_map]
    rfl
  exact ⟨rfl, hports _ _, hports _ fun i => portId (type.inputs.length + i)⟩

theorem OfType.map_inputs (h : n.OfType type) {α : Type} {f : PortSpec → α} (hf : ∀ p, f p.outline = f p) :
    n.inputs.map (fun p => f p.toPortSpec) = type.inputs.map f := by
  have hmap := congrArg (List.map f) h.inputs
  simpa only [List.map_map, Function.comp_def, hf] using hmap

theorem OfType.map_outputs (h : n.OfType type) {α : Type} {f : PortSpec → α} (hf : ∀ p, f p.outline = f p) :
    n.outputs.map (fun p => f p.toPortSpec) = type.outputs.map f := by
  have hmap := congrArg (List.map f) h.outputs
  simpa only [List.map_map, Function.comp_def, hf] using hmap

theorem OfType.setDefault (h : n.OfType type) (input : Nat) (value : Option PortValue) :
    (n.modifyPort .input input fun p => { p with defaultValue := value }).OfType type := by
  refine ⟨h.idname, ?_, h.outputs⟩
  have hkeep := congrArg (List.map Port.toPortSpec) (Tree.map_outline_modify n.inputs input value)
  rw [List.map_map, List.map_map] at hkeep
  exact Eq.trans hkeep h.inputs

/-- How a node is compiled: as its function, or as one side of the interface. -/
inductive Kind (n : Node) : Prop
  | operation {f : Function} (hf : (n.idname, f) ∈ Inserters.builtinFunctions)
      (hin : n.inputs.map (fun p => p.type.valueType?) = f.inputs.toList.map (fun p => some p.type))
      (hout : n.outputs.map (fun p => p.type.valueType?) = f.outputs.toList.map (fun p => some p.type)) : Kind n
  | arguments {types : List PortType} (hid : n.idname = Idname.functionInput) (hin : n.inputs = [])
      (hout : n.outputs.map (fun p => p.type) = types ++ [.extend]) (hdata : ∀ type ∈ types, type.valueType?.isSome) :
      Kind n
  | results {types : List PortType} (hid : n.idname = Idname.functionOutput) (hout : n.outputs = [])
      (hin : n.inputs.map (fun p => p.type) = types ++ [.extend]) (hdata : ∀ type ∈ types, type.valueType?.isSome) :
      Kind n

/-- What is known of a node of an offered type. -/
structure Offered (n : Node) : Prop where
  kind : n.Kind
  inputs : ∀ p ∈ n.inputs, p.direction = .input ∧ p.multiConnect = false
  outputs : ∀ p ∈ n.outputs, p.direction = .output

theorem OfType.offered (h : n.OfType type) (hoffers : Catalogue.Offers type) : n.Offered := by
  have hin {α : Type} (f : PortSpec → α) (hf : ∀ p, f p.outline = f p) := h.map_inputs hf
  have hout {α : Type} (f : PortSpec → α) (hf : ∀ p, f p.outline = f p) := h.map_outputs hf
  refine ⟨?_, fun p hp => ?_, fun p hp => ?_⟩
  · cases hoffers with
    | operation hmem hne hne' =>
        obtain ⟨f, hf, hfin, hfout⟩ := Catalogue.exists_builtinFunction hmem hne hne'
        exact .operation (h.idname ▸ hf) ((hin (fun p => p.type.valueType?) fun _ => rfl).trans hfin)
          ((hout (fun p => p.type.valueType?) fun _ => rfl).trans hfout)
    | @arguments parameters hparameters hdata =>
        obtain ⟨hid, hnil, hports⟩ := Catalogue.functionInput?_eq hparameters
        have htypes : ∀ type ∈ parameters.map Prod.snd, type.valueType?.isSome := List.forall_mem_map.mpr hdata
        refine .arguments (h.idname.trans hid) ?_ ?_ htypes
        · simpa [hnil] using h.inputs
        · rw [hout (fun p => p.type) fun _ => rfl, hports]
          simp [PortSpec.plain, PortSpec.placeholder, Function.comp_def]
    | @results parameters hparameters hdata =>
        obtain ⟨hid, hnil, hports⟩ := Catalogue.functionOutput?_eq hparameters
        have htypes : ∀ type ∈ parameters.map Prod.snd, type.valueType?.isSome := List.forall_mem_map.mpr hdata
        refine .results (h.idname.trans hid) ?_ ?_ htypes
        · simpa [hnil] using h.outputs
        · rw [hin (fun p => p.type) fun _ => rfl, hports]
          simp [PortSpec.plain, PortSpec.placeholder, Function.comp_def]
  · have hmem : (p.direction, p.multiConnect) ∈ n.inputs.map (fun p => (p.direction, p.multiConnect)) :=
      List.mem_map_of_mem (f := fun p : Port => (p.direction, p.multiConnect)) hp
    rw [hin (fun p => (p.direction, p.multiConnect)) fun _ => rfl] at hmem
    obtain ⟨q, hq, he⟩ := List.mem_map.mp hmem
    rw [Prod.mk.injEq] at he
    exact ⟨he.1 ▸ (hoffers.inputs hq).1, he.2 ▸ (hoffers.inputs hq).2⟩
  · have hmem : p.direction ∈ n.outputs.map (fun p => p.direction) :=
      List.mem_map_of_mem (f := fun p : Port => p.direction) hp
    rw [hout (fun p => p.direction) fun _ => rfl] at hmem
    obtain ⟨q, hq, he⟩ := List.mem_map.mp hmem
    exact he ▸ hoffers.outputs hq

end Node

/-- The edits that build the tree of a function. -/
def Edit.Offered : Edit → Prop
  | .addNode n => ∃ type id portId name, Catalogue.Offers type ∧ n = { type.instantiate id portId with name }
  | .insertPort .. => False
  | _ => True

namespace Tree

variable {t : Tree}

theorem nodes_connect {id : ConnectionId} {source target : Endpoint} {t' : Tree}
    (hok : t.connect id source target = .ok t') : t'.nodes = t.nodes := by
  obtain ⟨-, -, -, -, -, -, -, -, -, -, -, -, -, rfl⟩ := connect_eq_ok_iff.mp hok
  rfl

/-- A node of a tree after an offered edit is one of before, a new one, or one with another default value. -/
theorem mem_nodes_after (h : t.WellFormed) {e : Edit} (he : e.Offered) (hfresh : t.Fresh e) {n : Node}
    (hn : n ∈ (t.after e).nodes.values) : n ∈ t.nodes.values ∨ e = .addNode n ∨ ∃ m ∈ t.nodes.values, ∃ input value,
      n = m.modifyPort .input input fun p => { p with defaultValue := value } := by
  have houtcome := t.outcome_after e
  generalize t.after e = t' at houtcome hn
  cases houtcome with
  | refused => exact .inl hn
  | addNode m =>
      rw [Tree.addNode, OrderedMap.values_insert hfresh.1, List.mem_append, List.mem_singleton] at hn
      exact hn.imp_right fun hm => .inl (congrArg Edit.addNode hm.symm)
  | removeNode id => exact .inl ((OrderedMap.values_erase_sublist _ _).mem hn)
  | connect hok => exact .inl (nodes_connect hok ▸ hn)
  | connectAt _ _ hok => exact .inl (nodes_connect hok ▸ hn)
  | disconnect id => exact .inl hn
  | insertPort => exact he.elim
  | setDefault node input value =>
      obtain ⟨id, hid⟩ := OrderedMap.exists_get? (OrderedMap.nodup_modify h.nodeKeys _ _) hn
      cases hnode : t.nodes.get? node with
      | none =>
          rw [Tree.modifyNode, OrderedMap.modify_eq_self hnode] at hn
          exact .inl hn
      | some m =>
          rcases (OrderedMap.get?_modify_iff h.nodeKeys hnode).mp hid with ⟨rfl, rfl⟩ | ⟨-, hid⟩
          · exact .inr (.inr ⟨m, OrderedMap.mem_values_of_get? hnode, input, value, rfl⟩)
          · exact .inl (OrderedMap.mem_values_of_get? hid)

theorem Edited.exists_type (h : t.Edited Edit.Offered) :
    ∀ n ∈ t.nodes.values, ∃ type, Catalogue.Offers type ∧ n.OfType type := by
  induction h with
  | new name => simp [OrderedMap.values, OrderedMap.empty]
  | @after t e hedited hallowed hfresh ih =>
      intro n hn
      rcases mem_nodes_after hedited.wellFormed hallowed hfresh hn with hn | rfl | ⟨m, hm, input, value, rfl⟩
      · exact ih n hn
      · obtain ⟨type, id, portId, name, hoffers, rfl⟩ := hallowed
        exact ⟨type, hoffers, Node.ofType_instantiate type id portId name⟩
      · obtain ⟨type, hoffers, hm⟩ := ih m hm
        -- only the default value of a port has changed, and the type does not tell it
        exact ⟨type, hoffers, hm.setDefault input value⟩

theorem Edited.offered (h : t.Edited Edit.Offered) {n : Node} (hn : n ∈ t.nodes.values) : n.Offered := by
  obtain ⟨type, hoffers, htype⟩ := h.exists_type n hn
  exact htype.offered hoffers

/-! The sum of a float and a whole number is built with seven edits. -/

/-- The type of a node with a float and a whole number for parameters. -/
def numbersType : NodeType :=
  Catalogue.withPorts Catalogue.standardTypes[0] .output [("a", .float), ("n", .int)]

/-- The type of a node with a float and a whole number for results. -/
def totalsType : NodeType :=
  Catalogue.withPorts Catalogue.standardTypes[1] .input [("sum", .float), ("n", .int)]

/-- The sum of both parameters, and the second parameter itself. -/
def mixedSum : Tree :=
  [Edit.addNode (numbersType.instantiate (Supply.nodeId 0) fun i => Supply.portId i),
    .addNode (sumNode 1),
    .addNode (totalsType.instantiate (Supply.nodeId 2) fun i => Supply.portId (6 + i)),
    .connectAt (Supply.connectionId 0) (Supply.nodeId 0) 0 (Supply.nodeId 1) 0,
    .connectAt (Supply.connectionId 1) (Supply.nodeId 0) 1 (Supply.nodeId 1) 1,
    .connectAt (Supply.connectionId 2) (Supply.nodeId 1) 0 (Supply.nodeId 2) 0,
    .connectAt (Supply.connectionId 3) (Supply.nodeId 0) 1 (Supply.nodeId 2) 1].foldl after { name := "mixed sum" }

theorem offered_sumNode (number : Nat) : Edit.Offered (.addNode (sumNode number)) :=
  ⟨Catalogue.standardTypes[2], Supply.nodeId number, fun i => Supply.portId (3 * number + i), "Add",
    .operation (by decide +kernel) (by decide) (by decide), rfl⟩

theorem edited_mixedSum : mixedSum.Edited Edit.Offered := by
  have hnumbers : Catalogue.standard.functionInput? [("a", .float), ("n", .int)] = some numbersType := by
    decide +kernel
  have htotals : Catalogue.standard.functionOutput? [("sum", .float), ("n", .int)] = some totalsType := by
    decide +kernel
  have hfirst : Edit.Offered (.addNode (numbersType.instantiate (Supply.nodeId 0) fun i => Supply.portId i)) :=
    ⟨numbersType, _, _, _, .arguments hnumbers (by decide), rfl⟩
  have hsecond : Edit.Offered (.addNode (totalsType.instantiate (Supply.nodeId 2) fun i => Supply.portId (6 + i))) :=
    ⟨totalsType, _, fun i => Supply.portId (6 + i), _, .results htotals (by decide), rfl⟩
  refine .after (.after (.after (.after (.after (.after (.after (.new _) hfirst ?_) (offered_sumNode 1) ?_) hsecond ?_) trivial ?_)
    trivial ?_) trivial ?_) trivial ?_ <;> decide +kernel

end Tree

end Nodeflow
