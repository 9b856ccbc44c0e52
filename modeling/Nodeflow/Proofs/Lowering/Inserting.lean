import Nodeflow.Lowering.Tree
import Nodeflow.Proofs.Lowering.Running
import Nodeflow.Proofs.OrderedMap
import Nodeflow.Proofs.Snapshot.Sockets

/-!
# Inserting the nodes of a tree

The first phase of lowering gives each node of the tree one node of the data graph, under the same
number. A socket of the tree stands for the data socket at its position; the placeholder of an
interface node, and the sockets on its other side, stand for nothing.
-/

namespace Nodeflow

theorem exists_getElem?_of_mem_dropLast {α : Type} {xs : List α} {x : α} (h : x ∈ xs.dropLast) :
    ∃ k : Nat, xs[k]? = some x ∧ k < xs.length - 1 := by
  obtain ⟨k, hk⟩ := List.mem_iff_getElem?.mp h
  have hlt := (List.getElem?_eq_some_iff.mp hk).1
  rw [List.length_dropLast] at hlt
  rw [List.getElem?_dropLast, if_pos hlt] at hk
  exact ⟨k, hk, hlt⟩

namespace Inserters

def builtinNames : List String := builtinFunctions.map Prod.fst

variable {config : Config} {idname : String}

/-- A builtin node type goes before the interface nodes, and the output node before the input node. -/
theorem get?_builtin (config : Config) (idname : String) : (builtin config).get? idname =
    ((builtinFunctions.reverse.find? fun e => e.1 = idname).map fun e => Inserter.ofFunction e.2).or
      (if idname = config.outputNode then some Inserter.functionOutput
        else if idname = config.inputNode then some Inserter.functionInput else none) := by
  rw [builtin, OrderedMap.ofList, OrderedMap.get?_insertAll]
  have hnone : (OrderedMap.empty : Inserters).get? idname = none := by simp [OrderedMap.get?, OrderedMap.empty]
  rw [hnone, Option.or_none, List.reverse_cons, List.reverse_cons, List.append_assoc, List.find?_append,
    ← List.map_reverse, List.find?_map]
  simp only [Function.comp_def]
  cases builtinFunctions.reverse.find? fun e => e.1 = idname with
  | some e => simp
  | none => 
      by_cases hout : idname = config.outputNode
      · simp [hout]
      · by_cases hin : idname = config.inputNode
        · have hne : config.inputNode ≠ config.outputNode := hin ▸ hout
          simp [hin, hne, Ne.symm hne]
        · simp [hout, hin, Ne.symm hout, Ne.symm hin]

end Inserters

namespace Lower

open Inserters Snapshot

variable {R : Prop} {tree : Snapshot} {config : Config} {node : SnapshotNode} {d d' : Draft}

/-- A socket of the tree carries values of a type. -/
def HasType (tree : Snapshot) (i : Nat) (type : ValueType) : Prop :=
  ∃ socket, tree.sockets[i]? = some socket ∧ socket.port.type.valueType? = some type

/-- A socket of the tree declares a parameter. -/
def Declares (tree : Snapshot) (i : Nat) (p : Parameter) : Prop :=
  ∃ socket, tree.sockets[i]? = some socket ∧ socket.port.name = p.name ∧
    socket.port.type.valueType? = some p.type

/-- The functions that are inserted for a node. -/
inductive Inserts (tree : Snapshot) (config : Config) (node : SnapshotNode) : Function → Prop
  | builtin {f : Function} (hf : (node.idname, f) ∈ builtinFunctions)
      (hin : List.Forall₂ (fun i p => HasType tree i p.type) node.inputs f.inputs.toList)
      (hout : List.Forall₂ (fun i p => HasType tree i p.type) node.outputs f.outputs.toList) :
      Inserts tree config node f
  | results {parameters : List Parameter} (hb : node.idname ∉ builtinNames)
      (hn : node.idname = config.outputNode)
      (hp : List.Forall₂ (Declares tree) node.inputs.dropLast parameters) :
      Inserts tree config node (Builtin.functionOutput parameters)
  | arguments {parameters : List Parameter} (hb : node.idname ∉ builtinNames)
      (ho : node.idname ≠ config.outputNode) (hn : node.idname = config.inputNode)
      (hp : List.Forall₂ (Declares tree) node.outputs.dropLast parameters) :
      Inserts tree config node (Builtin.functionInput parameters)

/-- A data node stands for a node of the tree. -/
structure Stands (tree : Snapshot) (config : Config) (d : Draft) (node : SnapshotNode)
    (entry : NodeEntry) : Prop where
  inserts : Inserts tree config node entry.function
  source : entry.source = some ⟨tree.name, node.name⟩
  input : ∀ {k i : Nat}, node.inputs[k]? = some i → d.socket? i =
    if k < entry.inputCount then some (.input ⟨entry.firstInput + k⟩) else none
  output : ∀ {k i : Nat}, node.outputs[k]? = some i → d.socket? i =
    if k < entry.outputCount then some (.output ⟨entry.firstOutput + k⟩) else none

/-! ## Single steps -/

theorem socket?_set (d : Draft) {i : Nat} {s : DataSocket} (hi : i < d.sockets.size) (j : Nat) :
    ({ d with sockets := d.sockets.setIfInBounds i (some s) } : Draft).socket? j =
      if j = i then some s else d.socket? j := by
  rw [Draft.socket?, Draft.socket?, Array.getElem?_setIfInBounds]
  by_cases hj : j = i
  · subst hj
    simp [hi]
  · rw [if_neg (Ne.symm hj), if_neg hj]

theorem Ends.mapRange {α : Type} {find : DataGraphBuilder → Nat → Except Fault α} (wrap : α → DataSocket)
    {first n : Nat} (found : Nat → α) (hsize : first + n ≤ d.sockets.size)
    (hfind : ∀ k < n, find d.builder k = .ok (found k)) :
    Ends R ((List.range' first n).zipIdx.forM fun (socket, position) => do
      Lower.map socket (wrap (← Lower.look (find · position)))) d fun _ d' =>
        d'.builder = d.builder ∧ d'.sockets.size = d.sockets.size ∧ ∀ i, d'.socket? i =
          if first ≤ i ∧ i < first + n then some (wrap (found (i - first))) else d.socket? i := by
  refine (Ends.forM (fun before d₁ => d₁.builder = d.builder ∧ d₁.sockets.size = d.sockets.size ∧
    ∀ i, d₁.socket? i = if first ≤ i ∧ i < first + before.length then some (wrap (found (i - first)))
      else d.socket? i) ⟨rfl, rfl, fun i => ?_⟩ ?_).mono fun _ d' h => ?_
  · rw [if_neg (by simp)]
  · rintro before ⟨socket, position⟩ after d₁ hsplit ⟨hb, hs, hmapped⟩
    have hlt : before.length < n := by
      have := congrArg List.length hsplit
      simp at this
      omega
    obtain ⟨rfl, rfl⟩ : socket = first + before.length ∧ position = before.length := by
      have hat : (List.range' first n).zipIdx[before.length]? = some (socket, position) := by
        rw [hsplit]
        simp
      obtain ⟨_, he⟩ := List.getElem?_eq_some_iff.mp hat
      rw [List.getElem_zipIdx, List.getElem_range', Prod.mk.injEq] at he
      omega
    refine .step (.look (hb ▸ hfind _ hlt) ⟨rfl, rfl⟩) ?_
    refine .map ⟨hb, by simpa using hs, fun i => ?_⟩
    rw [socket?_set d₁ (by omega), hmapped, List.length_append, List.length_singleton]
    by_cases hi : i = first + before.length
    · rw [if_pos hi, if_pos (by omega), hi, Nat.add_sub_cancel_left]
    · rw [if_neg hi]
      exact if_congr (by omega) rfl rfl
  · simpa using h

theorem typesMatch_iff {sockets : List Nat} {parameters : Array Parameter} :
    typesMatch tree sockets parameters ↔
      List.Forall₂ (fun i p => HasType tree i p.type) sockets parameters.toList := by
  rw [typesMatch, beq_iff_eq, ← List.forall₂_eq_eq_eq, List.forall₂_map_left_iff,
    List.forall₂_map_right_iff]
  simp only [HasType, Option.bind_eq_some_iff]

theorem Ends.parameter {i : Nat} {socket : SnapshotSocket} (hs : tree.sockets[i]? = some socket)
    (hR : socket.port.type.valueType? = none → R) :
    Ends R (Lower.parameter tree node i) d fun p d' => d' = d ∧ Declares tree i p := by
  refine .step (.socket hs ⟨rfl, rfl⟩) ?_
  dsimp only
  split
  · rename_i type htype
    exact .pure ⟨rfl, _, hs, rfl, htype⟩
  · rename_i hnone
    exact .throw (hR hnone)

/-! ## Nodes -/

/-- A node with a function has been inserted, and its data sockets stand for a range of sockets. -/
structure Inserted (tree : Snapshot) (node : SnapshotNode) (first firstOutput : Nat) (f : Function)
    (d d' : Draft) : Prop where
  builder : d'.builder = (d.builder.insert f (some ⟨tree.name, node.name⟩)).2
  size : d'.sockets.size = d.sockets.size
  socket? : ∀ i, d'.socket? i =
    if first ≤ i ∧ i < first + f.inputs.size then
      some (.input ⟨d.builder.inputs.size + (i - first)⟩)
    else if firstOutput ≤ i ∧ i < firstOutput + f.outputs.size then
      some (.output ⟨d.builder.outputs.size + (i - firstOutput)⟩)
    else d.socket? i

variable {n : Node} {first j : Nat} {f : Function}

theorem function_insert (b : DataGraphBuilder) (f : Function) (source : Option SourceInfo) :
    (b.insert f source).2.function ⟨b.nodes.size⟩ = .ok f := by
  rw [Wiring.function, Wiring.node_eq_ok_iff (n := ⟨b.nodes.size⟩).mpr
    (DataGraphBuilder.node_insert f source b)]
  rfl

theorem inputSocket_insert (b : DataGraphBuilder) (f : Function) (source : Option SourceInfo) {k : Nat}
    (hk : k < f.inputs.size) :
    (b.insert f source).2.inputSocket ⟨b.nodes.size⟩ k = .ok ⟨b.inputs.size + k⟩ :=
  Wiring.inputSocket_eq_ok_iff.mpr ⟨_, DataGraphBuilder.node_insert f source b, hk, rfl⟩

theorem outputSocket_insert (b : DataGraphBuilder) (f : Function) (source : Option SourceInfo) {k : Nat}
    (hk : k < f.outputs.size) :
    (b.insert f source).2.outputSocket ⟨b.nodes.size⟩ k = .ok ⟨b.outputs.size + k⟩ :=
  Wiring.outputSocket_eq_ok_iff.mpr ⟨_, DataGraphBuilder.node_insert f source b, hk, rfl⟩

theorem dropLast_range' (first n : Nat) : (List.range' first n).dropLast = List.range' first (n - 1) := by
  cases n with
  | zero => rfl
  | succ n => rw [List.range'_1_concat, List.dropLast_concat, Nat.add_sub_cancel]

theorem nodup_builtinNames : builtinNames.Nodup := by decide

theorem Inserts.typesMatch {f' : Function} (h : Inserts tree config node f')
    (hf : (node.idname, f) ∈ builtinFunctions) :
    typesMatch tree node.inputs f.inputs ∧ typesMatch tree node.outputs f.outputs := by
  cases h with
  | builtin hf' hin hout =>
      have heq := List.inj_on_of_nodup_map nodup_builtinNames hf' hf rfl
      cases heq
      exact ⟨typesMatch_iff.mpr hin, typesMatch_iff.mpr hout⟩
  | results hb _ _ => exact absurd (List.mem_map_of_mem (f := Prod.fst) hf) hb
  | arguments hb _ _ _ => exact absurd (List.mem_map_of_mem (f := Prod.fst) hf) hb

/-- All sockets of a node stand for those of the node's function. -/
theorem Ends.ofFunction (hsize : first + n.ports.length ≤ d.sockets.size)
    (hf : (n.idname, f) ∈ builtinFunctions)
    (hR : (∀ f, ¬Inserts tree config (Snapshot.copy j n first) f) → R) :
    Ends R (Inserter.ofFunction f tree (Snapshot.copy j n first)) d fun _ d' =>
      ∃ f, Inserts tree config (Snapshot.copy j n first) f ∧
        Inserted tree (Snapshot.copy j n first) first (first + n.inputs.length) f d d' := by
  let d₁ : Draft := { d with builder := (d.builder.insert f (some ⟨tree.name, n.name⟩)).2 }
  refine .step (.insert ⟨rfl, rfl⟩) ?_
  have hfunction : Wiring.function d₁.builder ⟨d.builder.nodes.size⟩ = .ok f := function_insert _ f _
  refine .step (.look hfunction ⟨rfl, rfl⟩) ?_
  split
  · rename_i hmismatch
    refine (Ends.throw (hR fun f' hf' => ?_)).bind (P := fun _ _ => False) fun _ _ h => h.elim
    simp [hf'.typesMatch hf] at hmismatch
  · rename_i hmatch
    simp only [Bool.or_eq_true, Bool.not_eq_true', not_or, Bool.not_eq_false] at hmatch
    have hin := typesMatch_iff.mp hmatch.1
    have hout := typesMatch_iff.mp hmatch.2
    have hlenIn : f.inputs.size = n.inputs.length := by simpa [Snapshot.copy] using hin.length_eq.symm
    have hlenOut : f.outputs.size = n.outputs.length := by simpa [Snapshot.copy] using hout.length_eq.symm
    rw [Node.ports, List.length_append] at hsize
    refine (Ends.mapRange (d := d₁) .input (fun k => ⟨d.builder.inputs.size + k⟩) (by simp only [d₁]; omega)
      fun k hk => inputSocket_insert d.builder f _ (by omega)).bind fun _ d₂ h₂ => ?_
    obtain ⟨hb₂, hs₂, hm₂⟩ := h₂
    have hmapped : d₂.sockets.size = d.sockets.size := by rw [hs₂]
    refine (Ends.mapRange (d := d₂) .output (fun k => ⟨d.builder.outputs.size + k⟩) (by omega)
      fun k hk => ?_).mono fun _ d₃ h₃ => ?_
    · rw [hb₂]
      exact outputSocket_insert d.builder f _ (by omega)
    · obtain ⟨hb₃, hs₃, hm₃⟩ := h₃
      refine ⟨f, .builtin hf hin hout, hb₃.trans hb₂, hs₃.trans hs₂, fun i => ?_⟩
      rw [hm₃, hm₂, hlenIn, hlenOut]
      split
      · rw [if_neg (by omega)]
      · rfl

theorem Ends.placeholder {α : Type} (make : List Parameter → Function)
    (find : DataGraphBuilder → DataNode → Nat → Except Fault α) (wrap : α → DataSocket) {m : Nat} (found : Nat → α)
    (hsize : first + m ≤ d.sockets.size) (htree : d.sockets.size = tree.sockets.size)
    (hfind : ∀ parameters : List Parameter, parameters.length = m → ∀ source, ∀ k < m,
      find (d.builder.insert (make parameters) source).2 ⟨d.builder.nodes.size⟩ k = .ok (found k))
    (hR : (∀ parameters, ¬List.Forall₂ (Declares tree) (List.range' first m) parameters) → R) :
    Ends R (do
      let parameters ← (List.range' first m).mapM (Lower.parameter tree node)
      let inserted ← Lower.insert tree (make parameters) (some node)
      (List.range' first m).zipIdx.forM fun (socket, position) => do
        Lower.map socket (wrap (← Lower.look (find · inserted position)))) d fun _ d' =>
      ∃ parameters, List.Forall₂ (Declares tree) (List.range' first m) parameters ∧
        d'.builder = (d.builder.insert (make parameters) (some ⟨tree.name, node.name⟩)).2 ∧
        d'.sockets.size = d.sockets.size ∧ ∀ i, d'.socket? i =
          if first ≤ i ∧ i < first + m then some (wrap (found (i - first))) else d.socket? i := by
  refine (Ends.mapM (S := Declares tree) fun i hi => ?_).bind fun parameters d₀ h₀ => ?_
  · have hlt : i < tree.sockets.size := by
      have := (List.mem_range'_1.mp hi).2
      omega
    refine Ends.parameter (Array.getElem?_eq_getElem hlt) fun hnone => hR fun parameters hall => ?_
    obtain ⟨k, hk⟩ := List.mem_iff_getElem?.mp hi
    obtain ⟨p, -, socket, hs, -, htype⟩ := (forall₂_iff_getElem?.mp hall).2 hk
    rw [Array.getElem?_eq_getElem hlt, Option.some.injEq] at hs
    rw [hs, htype] at hnone
    cases hnone
  · obtain ⟨rfl, hall⟩ := h₀
    have hlen : parameters.length = m := by rw [← hall.length_eq, List.length_range']
    let d₁ : Draft :=
      { d₀ with builder := (d₀.builder.insert (make parameters) (some ⟨tree.name, node.name⟩)).2 }
    refine .step (.insert ⟨rfl, rfl⟩) ?_
    exact (Ends.mapRange (d := d₁) wrap found hsize (hfind parameters hlen _)).mono fun _ _ h => ⟨parameters, hall, h⟩

theorem copy_inputs_dropLast (j : Nat) (n : Node) (first : Nat) :
    (Snapshot.copy j n first).inputs.dropLast = List.range' first (n.inputs.length - 1) :=
  dropLast_range' _ _

theorem copy_outputs_dropLast (j : Nat) (n : Node) (first : Nat) :
    (Snapshot.copy j n first).outputs.dropLast =
      List.range' (first + n.inputs.length) (n.outputs.length - 1) :=
  dropLast_range' _ _

theorem Ends.functionOutput (hsize : first + n.ports.length ≤ d.sockets.size)
    (htree : d.sockets.size = tree.sockets.size) (hb : n.idname ∉ builtinNames)
    (hn : n.idname = config.outputNode)
    (hR : (∀ f, ¬Inserts tree config (Snapshot.copy j n first) f) → R) :
    Ends R (Inserter.functionOutput tree (Snapshot.copy j n first)) d fun _ d' =>
      ∃ f, Inserts tree config (Snapshot.copy j n first) f ∧
        Inserted tree (Snapshot.copy j n first) first (first + n.inputs.length) f d d' := by
  rw [Node.ports, List.length_append] at hsize
  simp only [Inserter.functionOutput, copy_inputs_dropLast]
  refine (Ends.placeholder Builtin.functionOutput Wiring.inputSocket .input
    (fun k => ⟨d.builder.inputs.size + k⟩) (by omega) htree
    (fun parameters hlen source k hk => inputSocket_insert d.builder _ source
      (by simpa [Builtin.functionOutput, hlen] using hk)) fun hnone => hR fun f hf => ?_).mono ?_
  · cases hf with
    | builtin hf _ _ => exact hb (List.mem_map_of_mem (f := Prod.fst) hf)
    | results _ _ hp => exact hnone _ (by rwa [copy_inputs_dropLast] at hp)
    | arguments _ hne _ _ => exact hne hn
  · rintro _ d' ⟨parameters, hall, hbuilder, hsize', hsockets⟩
    have hlen : (Builtin.functionOutput parameters).inputs.size = n.inputs.length - 1 := by
      rw [Builtin.functionOutput, List.size_toArray, ← hall.length_eq, List.length_range']
    refine ⟨_, .results hb hn (by rwa [copy_inputs_dropLast]), hbuilder, hsize', fun i => ?_⟩
    have hnone : (Builtin.functionOutput parameters).outputs.size = 0 := rfl
    rw [hsockets, hlen, hnone]
    split
    · rfl
    · rw [if_neg (by omega)]

theorem Ends.functionInput (hsize : first + n.ports.length ≤ d.sockets.size)
    (htree : d.sockets.size = tree.sockets.size) (hb : n.idname ∉ builtinNames)
    (ho : n.idname ≠ config.outputNode) (hn : n.idname = config.inputNode)
    (hR : (∀ f, ¬Inserts tree config (Snapshot.copy j n first) f) → R) :
    Ends R (Inserter.functionInput tree (Snapshot.copy j n first)) d fun _ d' =>
      ∃ f, Inserts tree config (Snapshot.copy j n first) f ∧
        Inserted tree (Snapshot.copy j n first) first (first + n.inputs.length) f d d' := by
  rw [Node.ports, List.length_append] at hsize
  simp only [Inserter.functionInput, copy_outputs_dropLast]
  refine (Ends.placeholder Builtin.functionInput Wiring.outputSocket .output
    (fun k => ⟨d.builder.outputs.size + k⟩) (by omega) htree
    (fun parameters hlen source k hk => outputSocket_insert d.builder _ source
      (by simpa [Builtin.functionInput, hlen] using hk)) fun hnone => hR fun f hf => ?_).mono ?_
  · cases hf with
    | builtin hf _ _ => exact hb (List.mem_map_of_mem (f := Prod.fst) hf)
    | results _ hn _ => exact ho hn
    | arguments _ _ _ hp => exact hnone _ (by rwa [copy_outputs_dropLast] at hp)
  · rintro _ d' ⟨parameters, hall, hbuilder, hsize', hsockets⟩
    have hlen : (Builtin.functionInput parameters).outputs.size = n.outputs.length - 1 := by
      rw [Builtin.functionInput, List.size_toArray, ← hall.length_eq, List.length_range']
    refine ⟨_, .arguments hb ho hn (by rwa [copy_outputs_dropLast]), hbuilder, hsize', fun i => ?_⟩
    have hnone : (Builtin.functionInput parameters).inputs.size = 0 := rfl
    rw [hsockets, hlen, hnone, if_neg (show ¬(first ≤ i ∧ i < first + 0) by omega)]

theorem Ends.insertNode (hsize : first + n.ports.length ≤ d.sockets.size)
    (htree : d.sockets.size = tree.sockets.size)
    (hR : (∀ f, ¬Inserts tree config (Snapshot.copy j n first) f) → R) :
    Ends R (insertNode tree (builtin config) (Snapshot.copy j n first)) d fun _ d' =>
      ∃ f, Inserts tree config (Snapshot.copy j n first) f ∧
        Inserted tree (Snapshot.copy j n first) first (first + n.inputs.length) f d d' := by
  rw [Lower.insertNode, get?_builtin]
  cases hfind : builtinFunctions.reverse.find? fun e => e.1 = (Snapshot.copy j n first).idname with
  | some e =>
      have hname : e.1 = n.idname := of_decide_eq_true (List.find?_some hfind :)
      have hmem : (n.idname, e.2) ∈ builtinFunctions := by
        rw [← hname]
        exact List.mem_reverse.mp (List.mem_of_find?_eq_some hfind)
      exact Ends.ofFunction hsize hmem hR
  | none =>
      have hb : n.idname ∉ builtinNames := by
        intro hmem
        obtain ⟨e, he, hname⟩ := List.mem_map.mp hmem
        exact List.find?_eq_none.mp hfind e (List.mem_reverse.mpr he) (decide_eq_true hname)
      by_cases hout : n.idname = config.outputNode
      · rw [if_pos (show (Snapshot.copy j n first).idname = config.outputNode from hout)]
        exact Ends.functionOutput hsize htree hb hout hR
      · rw [if_neg (show (Snapshot.copy j n first).idname ≠ config.outputNode from hout)]
        by_cases hin : n.idname = config.inputNode
        · rw [if_pos (show (Snapshot.copy j n first).idname = config.inputNode from hin)]
          exact Ends.functionInput hsize htree hb hout hin hR
        · rw [if_neg (show (Snapshot.copy j n first).idname ≠ config.inputNode from hin)]
          refine .throw (hR fun f hf => ?_)
          cases hf with
          | builtin hf _ _ => exact hb (List.mem_map_of_mem (f := Prod.fst) hf)
          | results _ hn _ => exact hout hn
          | arguments _ _ hn _ => exact hin hn

/-! ## All nodes -/

theorem Inserts.size_le (h : Inserts tree config node f) :
    f.inputs.size ≤ node.inputs.length ∧ f.outputs.size ≤ node.outputs.length := by
  cases h with
  | builtin _ hin hout =>
      have hin := hin.length_eq
      have hout := hout.length_eq
      simp only [Array.length_toList] at hin hout
      omega
  | results _ _ hp =>
      have := hp.length_eq
      simp only [List.length_dropLast] at this
      simp only [Builtin.functionOutput, List.size_toArray, List.size_toArray, List.length_nil]
      omega
  | arguments _ _ _ hp =>
      have := hp.length_eq
      simp only [List.length_dropLast] at this
      simp only [Builtin.functionInput, List.size_toArray, List.length_nil]
      omega

theorem hasType_of_declares {sockets : List Nat} {parameters : List Parameter} {p : Parameter} {k i : Nat}
    (h : List.Forall₂ (Declares tree) sockets.dropLast parameters) (hi : sockets[k]? = some i)
    (hp : parameters[k]? = some p) : HasType tree i p.type := by
  obtain ⟨i', hi', socket, hs, -, htype⟩ := (forall₂_iff_getElem?.mp h.flip).2 hp
  rw [List.getElem?_dropLast] at hi'
  split at hi'
  · rw [hi, Option.some.injEq] at hi'
    exact ⟨socket, hi' ▸ hs, htype⟩
  · cases hi'

theorem Inserts.inputType {k i : Nat} (h : Inserts tree config node f) (hi : node.inputs[k]? = some i)
    (hk : k < f.inputs.size) : HasType tree i f.inputs[k].type := by
  cases h with
  | builtin _ hin _ =>
      obtain ⟨p, hp, htype⟩ := (forall₂_iff_getElem?.mp hin).2 hi
      rw [Array.getElem?_toList, Array.getElem?_eq_getElem hk, Option.some.injEq] at hp
      exact hp ▸ htype
  | results _ _ hparameters => exact hasType_of_declares hparameters hi (List.getElem?_eq_getElem hk)
  | arguments => exact absurd hk (Nat.not_lt_zero k)

theorem Inserts.outputType {k i : Nat} (h : Inserts tree config node f) (hi : node.outputs[k]? = some i)
    (hk : k < f.outputs.size) : HasType tree i f.outputs[k].type := by
  cases h with
  | builtin _ _ hout =>
      obtain ⟨p, hp, htype⟩ := (forall₂_iff_getElem?.mp hout).2 hi
      rw [Array.getElem?_toList, Array.getElem?_eq_getElem hk, Option.some.injEq] at hp
      exact hp ▸ htype
  | results => exact absurd hk (Nat.not_lt_zero k)
  | arguments _ _ _ hparameters => exact hasType_of_declares hparameters hi (List.getElem?_eq_getElem hk)

/-- The first nodes of the tree have been inserted, and nothing has been linked. -/
structure Placed (tree : Snapshot) (config : Config) (count : Nat) (d : Draft) : Prop where
  typed : DataGraphBuilder.WellTyped d.builder
  nodes : d.builder.nodes.size = count
  size : d.sockets.size = tree.sockets.size
  stands : ∀ {j : Nat} {node : SnapshotNode}, tree.nodes[j]? = some node → j < count →
    ∃ entry, d.builder.nodes[j]? = some entry ∧ Stands tree config d node entry
  unlinked : ∀ {s : Nat} {e : InputEntry (Option OutputSocket)}, d.builder.inputs[s]? = some e →
    e.origin = none
  later : ∀ {i : Nat} {socket : SnapshotSocket}, tree.sockets[i]? = some socket →
    count ≤ socket.node → d.socket? i = none

theorem placed_start (tree : Snapshot) (config : Config) : Placed tree config 0 (Draft.start tree) where
  typed := DataGraphBuilder.wellTyped_empty
  nodes := rfl
  size := by simp [Draft.start]
  stands _ h := absurd h (Nat.not_lt_zero _)
  unlinked h := by simp [Draft.start] at h
  later {i _} _ _ := by
    rw [Draft.socket?, Draft.start, Array.getElem?_replicate]
    split <;> rfl

variable {nodes : List Node}

theorem exists_socket_of_mem (hc : tree.Copies nodes) (hnode : tree.nodes[j]? = some node) {i : Nat}
    (hi : i ∈ node.inputs ++ node.outputs) : ∃ socket, tree.sockets[i]? = some socket ∧ socket.node = j := by
  have hlt : j < nodes.length := hc.size ▸ (Array.getElem?_eq_some_iff.mp hnode).1
  obtain ⟨first, hcopy, -, howners⟩ := hc.node (List.getElem?_eq_getElem hlt)
  rw [hnode] at hcopy
  cases hcopy
  obtain ⟨k, hk, rfl⟩ : ∃ k < nodes[j].ports.length, i = first + k := by
    rw [Node.ports, List.length_append]
    rcases List.mem_append.mp hi with hi | hi
    · obtain ⟨k, hk⟩ := List.mem_iff_getElem?.mp hi
      obtain ⟨hlt, rfl⟩ := getElem?_copy_inputs hk
      exact ⟨k, by omega, rfl⟩
    · obtain ⟨k, hk⟩ := List.mem_iff_getElem?.mp hi
      obtain ⟨hlt, rfl⟩ := getElem?_copy_outputs hk
      exact ⟨nodes[j].inputs.length + k, by omega, by omega⟩
  obtain ⟨socket, hs, hj, -⟩ := Snapshot.exists_socket (howners (List.getElem?_eq_getElem hk))
  exact ⟨socket, hs, hj⟩

theorem Stands.of_socket?_eq {entry : NodeEntry} (h : Stands tree config d node entry)
    (hkeep : ∀ i ∈ node.inputs ++ node.outputs, d'.socket? i = d.socket? i) :
    Stands tree config d' node entry where
  inserts := h.inserts
  source := h.source
  input hk := by rw [hkeep _ (List.mem_append_left _ (List.mem_of_getElem? hk)), h.input hk]
  output hk := by rw [hkeep _ (List.mem_append_right _ (List.mem_of_getElem? hk)), h.output hk]

/-- Inserting a node leaves alone what the sockets of other nodes stand for. -/
theorem Inserted.socket?_of_outside
    (hi : Inserted tree (Snapshot.copy j n first) first (first + n.inputs.length) f d d')
    (hf : Inserts tree config (Snapshot.copy j n first) f) {i : Nat}
    (hout : ¬(first ≤ i ∧ i < first + n.ports.length)) : d'.socket? i = d.socket? i := by
  obtain ⟨hinputs, houtputs⟩ := hf.size_le
  simp only [Snapshot.copy, List.length_range'] at hinputs houtputs
  rw [Node.ports, List.length_append] at hout
  rw [hi.socket?, if_neg (by omega), if_neg (by omega)]

theorem Inserted.stands
    (hi : Inserted tree (Snapshot.copy j n first) first (first + n.inputs.length) f d d')
    (hf : Inserts tree config (Snapshot.copy j n first) f)
    (hfree : ∀ k < n.ports.length, d.socket? (first + k) = none) :
    Stands tree config d' (Snapshot.copy j n first)
      ⟨f, some ⟨tree.name, n.name⟩, d.builder.inputs.size, d.builder.outputs.size⟩ := by
  obtain ⟨hinputs, houtputs⟩ := hf.size_le
  simp only [Snapshot.copy, List.length_range'] at hinputs houtputs
  rw [Node.ports, List.length_append] at hfree
  refine ⟨hf, rfl, fun {k i} hk => ?_, fun {k i} hk => ?_⟩
  · obtain ⟨hlt, rfl⟩ := getElem?_copy_inputs hk
    rw [hi.socket?, hfree k (by omega), Nat.add_sub_cancel_left]
    change _ = if k < f.inputs.size then some (DataSocket.input ⟨d.builder.inputs.size + k⟩) else none
    split
    · rw [if_pos (by omega)]
    · rw [if_neg (by omega), if_neg (by omega)]
  · obtain ⟨hlt, rfl⟩ := getElem?_copy_outputs hk
    rw [hi.socket?, Nat.add_assoc, hfree _ (by omega), ← Nat.add_assoc, Nat.add_sub_cancel_left,
      if_neg (by omega)]
    change _ = if k < f.outputs.size then some (DataSocket.output ⟨d.builder.outputs.size + k⟩) else none
    exact if_congr (by omega) rfl rfl

theorem Placed.insert (h : Placed tree config j d) (hc : tree.Copies nodes)
    (hnode : tree.nodes[j]? = some (Snapshot.copy j n first))
    (howners : ∀ {k : Nat} {p : Port}, n.ports[k]? = some p → tree.owners[first + k]? = some (j, p))
    (hf : Inserts tree config (Snapshot.copy j n first) f)
    (hi : Inserted tree (Snapshot.copy j n first) first (first + n.inputs.length) f d d') :
    Placed tree config (j + 1) d' := by
  -- a socket of the node belongs to no other node
  have hown {k : Nat} (hk : k < n.ports.length) : ∃ socket, tree.sockets[first + k]? = some socket ∧
      socket.node = j := by
    obtain ⟨socket, hs, hj, -⟩ := Snapshot.exists_socket (howners (List.getElem?_eq_getElem hk))
    exact ⟨socket, hs, hj⟩
  have hothers {i : Nat} {socket : SnapshotSocket} (hs : tree.sockets[i]? = some socket)
      (hj : socket.node ≠ j) : d'.socket? i = d.socket? i := by
    refine hi.socket?_of_outside hf fun ⟨hle, hlt⟩ => ?_
    obtain ⟨socket', hs', hj'⟩ := hown (k := i - first) (by omega)
    rw [Nat.add_sub_cancel' hle, hs] at hs'
    cases hs'
    exact hj hj'
  have hfree (k : Nat) (hk : k < n.ports.length) : d.socket? (first + k) = none := by
    obtain ⟨socket, hs, hj⟩ := hown hk
    exact h.later hs (Nat.le_of_eq hj.symm)
  have hat : d'.builder.nodes[j]? = some ⟨f, some ⟨tree.name, n.name⟩, d.builder.inputs.size,
      d.builder.outputs.size⟩ := by
    rw [hi.builder, ← h.nodes]
    exact DataGraphBuilder.node_insert _ _ _
  refine ⟨hi.builder ▸ h.typed.insert f _, ?_, hi.size.trans h.size, fun {j' node'} hj' hlt => ?_,
    fun {s e} he => ?_, fun {i socket} hs hj => ?_⟩
  · rw [hi.builder, DataGraphBuilder.insert, Array.size_push, h.nodes]
  · by_cases heq : j' = j
    · subst heq
      rw [hnode] at hj'
      cases hj'
      exact ⟨_, hat, hi.stands hf hfree⟩
    · obtain ⟨entry, hentry, hstands⟩ := h.stands hj' (by omega)
      refine ⟨entry, ?_, hstands.of_socket?_eq fun i hmem => ?_⟩
      · rw [hi.builder]
        exact (DataGraphBuilder.extends_insert _ _ _).nodes hentry
      · obtain ⟨socket, hs, rfl⟩ := exists_socket_of_mem hc hj' hmem
        exact hothers hs heq
  · rw [hi.builder] at he
    rcases DataGraphBuilder.input_insert_cases f _ he with he | ⟨k, -, -, rfl⟩
    · exact h.unlinked he
    · rfl
  · rw [hothers hs (by omega), h.later hs (by omega)]

/-- All nodes of a tree are inserted, unless one of them has no function. -/
theorem Ends.insertNodes (hc : tree.Copies nodes)
    (hR : ∀ node ∈ tree.nodes.toList, (∀ f, ¬Inserts tree config node f) → R) :
    Ends R (tree.nodes.toList.forM (Lower.insertNode tree (builtin config))) (Draft.start tree) fun _ d =>
      Placed tree config tree.nodes.size d := by
  refine (Ends.forM (fun before d => Placed tree config before.length d) (placed_start tree config) ?_).mono
    fun _ d h => ?_
  · intro before node after d hsplit h
    have hnode : tree.nodes[before.length]? = some node := by
      rw [← Array.getElem?_toList, hsplit]
      simp
    have hlt : before.length < nodes.length := hc.size ▸ (Array.getElem?_eq_some_iff.mp hnode).1
    have hn := List.getElem?_eq_getElem hlt
    obtain ⟨first, hcopy, hsize, howners⟩ := hc.node hn
    rw [hnode] at hcopy
    cases hcopy
    rw [Snapshot.length_owners, ← h.size] at hsize
    refine (Ends.insertNode hsize h.size (hR _ (by simp [hsplit]))).mono fun _ d' hd' => ?_
    obtain ⟨f, hf, hi⟩ := hd'
    rw [List.length_append, List.length_singleton]
    exact h.insert hc hnode howners hf hi
  · rwa [Array.length_toList] at h

end Lower

end Nodeflow
