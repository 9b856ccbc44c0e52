import Nodeflow.Generation
import Nodeflow.Proofs.FunctionGraph.Rounds
import Nodeflow.Proofs.FunctionGraph.Standard
import Nodeflow.Proofs.Lowering.Lowered

/-!
# The interface of a lowered tree

The arguments of a tree's function are the declared outputs of the input node, and its results the
declared inputs of the output node. Every other output of the data graph belongs to an operation.
-/

namespace Nodeflow

namespace Inserters

theorem exists_operation_of_mem {e : String × Function} (h : e ∈ builtinFunctions) :
    ∃ op : Operation, e.2 = op.function := by
  simp only [builtinFunctions, List.mem_cons, List.not_mem_nil, or_false] at h
  rcases h with rfl | rfl | rfl | rfl | rfl | rfl | rfl | rfl | rfl
  · exact ⟨.arithmetic _ _, rfl⟩
  · exact ⟨.arithmetic _ _, rfl⟩
  · exact ⟨.arithmetic _ _, rfl⟩
  · exact ⟨.arithmetic _ _, rfl⟩
  · exact ⟨.combineVector, rfl⟩
  · exact ⟨.separateVector, rfl⟩
  · exact ⟨.switch, rfl⟩
  · exact ⟨.listSum, rfl⟩
  · exact ⟨.range, rfl⟩

end Inserters

namespace Snapshot

variable {tree : Snapshot} {idname : String} {n : Nat}

theorem NumbersNodes.nodesOfType_eq_singleton (hnumbers : tree.NumbersNodes)
    (h : (tree.nodesOfType idname).length ≤ 1) {node : SnapshotNode} (hn : tree.nodes[n]? = some node)
    (hid : node.idname = idname) : tree.nodesOfType idname = [n] := by
  have hmem := hnumbers.mem_nodesOfType_iff.mpr ⟨node, hn, hid⟩
  match hnodes : tree.nodesOfType idname with
  | [] => simp [hnodes] at hmem
  | [m] =>
      rw [hnodes, List.mem_singleton] at hmem
      rw [hmem]
  | m :: m' :: rest => simp [hnodes] at h

end Snapshot

namespace LoweredTree

variable {t : LoweredTree} {tree : Snapshot} {config : Config} {idname : String} {side : SnapshotNode → List Nat}
  {ss : List DataSocket}

theorem socket_eq_ok_iff {i : Nat} {s : DataSocket} : t.socket i = .ok s ↔ t.socket? i = some s := by
  rw [socket]
  cases t.socket? i <;> simp

theorem foldlM_declared {declared : List Nat} {found : List DataSocket} (hfound : found.Nodup) :
    declared.foldlM (fun found i => do
      let s ← t.socket i
      if found.contains s then throw (Fault.mappedTwice i) else return found ++ [s]) found = .ok ss ↔
      ∃ more, ss = found ++ more ∧ ss.Nodup ∧
        List.Forall₂ (fun i s => t.socket? i = some s) declared more := by
  induction declared generalizing found with
  | nil =>
      rw [List.foldlM_nil, pure_eq_ok_iff]
      constructor
      · rintro rfl
        exact ⟨[], by simp, hfound, .nil⟩
      · rintro ⟨more, rfl, -, h⟩
        cases h
        simp
  | cons i declared ih =>
      simp only [List.foldlM_cons, bind_eq_ok_iff, socket_eq_ok_iff]
      constructor
      · rintro ⟨_, ⟨s, hs, h⟩, hrest⟩
        split at h
        · cases h
        · rename_i hnew
          cases h
          have hnodup : (found ++ [s]).Nodup := by
            rw [List.nodup_append]
            refine ⟨hfound, by simp, fun x hx y hy hxy => hnew ?_⟩
            rw [List.mem_singleton.mp hy] at hxy
            simpa [hxy] using hx
          obtain ⟨more, rfl, hss, hall⟩ := (ih hnodup).mp hrest
          exact ⟨s :: more, by simp, hss, .cons hs hall⟩
      · rintro ⟨_, rfl, hss, hall⟩
        rcases hall with _ | ⟨hs, hall⟩
        rename_i s more
        have hsplit : found ++ s :: more = found ++ [s] ++ more := by simp
        have hnodup : (found ++ [s]).Nodup := by
          rw [hsplit] at hss
          exact (List.nodup_append.mp hss).1
        refine ⟨found ++ [s], ⟨s, hs, ?_⟩, (ih hnodup).mpr ⟨more, hsplit, hss, hall⟩⟩
        rw [if_neg]
        · rfl
        · intro hmem
          exact (List.nodup_append.mp hnodup).2.2 s (by simpa using hmem) s (by simp) rfl

theorem declaredSockets_eq_ok_iff {declared : List Nat} : t.declaredSockets declared = .ok ss ↔
    ss.Nodup ∧ List.Forall₂ (fun i s => t.socket? i = some s) declared ss := by
  rw [declaredSockets, foldlM_declared List.nodup_nil]
  simp

inductive Side (t : LoweredTree) (tree : Snapshot) (idname : String) (side : SnapshotNode → List Nat) :
    List DataSocket → Prop
  | missing (h : tree.nodesOfType idname = []) : Side t tree idname side []
  | node {n : Nat} {node : SnapshotNode} {ss : List DataSocket} (hhead : (tree.nodesOfType idname).head? = some n)
      (hn : tree.nodes[n]? = some node) (hid : node.idname = idname) (hnodup : ss.Nodup)
      (hs : List.Forall₂ (fun i s => t.socket? i = some s) (side node).dropLast ss) : Side t tree idname side ss

theorem interfaceSide_eq_ok_iff (hnumbers : tree.NumbersNodes) :
    t.interfaceSide tree idname side = .ok ss ↔ Side t tree idname side ss := by
  unfold interfaceSide
  cases hnodes : tree.nodesOfType idname with
  | nil =>
      simp only [List.head?_nil, pure_eq_ok_iff]
      constructor
      · rintro rfl
        exact .missing hnodes
      · intro h
        cases h with
        | missing => rfl
        | node hhead => simp [hnodes] at hhead
  | cons n rest =>
      obtain ⟨node, hn, hid⟩ := hnumbers.mem_nodesOfType_iff.mp (hnodes ▸ List.mem_cons_self :
        n ∈ tree.nodesOfType idname)
      simp only [List.head?_cons, bind_eq_ok_iff, elementAt_eq_ok_iff]
      constructor
      · rintro ⟨node', hn', h⟩
        rw [hn] at hn'
        cases hn'
        obtain ⟨hnodup, hs⟩ := declaredSockets_eq_ok_iff.mp h
        exact .node (by rw [hnodes]; rfl) hn hid hnodup hs
      · intro h
        cases h with
        | missing h => simp [hnodes] at h
        | node hhead hn' _ hnodup hs =>
            rw [hnodes, List.head?_cons, Option.some.injEq] at hhead
            subst hhead
            exact ⟨_, hn', declaredSockets_eq_ok_iff.mpr ⟨hnodup, hs⟩⟩

theorem interface_eq_ok_iff (hnumbers : tree.NumbersNodes) {sockets : InterfaceSockets} :
    t.interface tree config = .ok sockets ↔
    Side t tree config.inputNode SnapshotNode.outputs sockets.inputs ∧
      Side t tree config.outputNode SnapshotNode.inputs sockets.outputs := by
  simp only [interface, bind_eq_ok_iff, interfaceSide_eq_ok_iff hnumbers, pure_eq_ok_iff]
  constructor
  · rintro ⟨inputs, hin, outputs, hout, rfl⟩
    exact ⟨hin, hout⟩
  · rintro ⟨hin, hout⟩
    exact ⟨_, hin, _, hout, rfl⟩

end LoweredTree

namespace Snapshot

open Lower LoweredTree

variable {tree : Snapshot} {config : Config} {nodes : List Node} {d : Draft} {t : LoweredTree}

theorem Lowers.socket? (h : Lowers tree config d t) (i : Nat) : t.socket? i = d.socket? i := by
  rw [LoweredTree.socket?, h.sockets, Draft.socket?]

theorem Lowers.nodes_eq (h : Lowers tree config d t) : t.graph.nodes = d.builder.nodes :=
  (DataGraphBuilder.build_eq_ok_iff.mp h.build).2.1

theorem Lowers.outputs_eq (h : Lowers tree config d t) : t.graph.outputs = d.builder.outputs :=
  (DataGraphBuilder.build_eq_ok_iff.mp h.build).2.2.1

theorem Lowers.frozen (h : Lowers tree config d t) : t.graph.Frozen :=
  h.completed.typed.frozen h.build

theorem Lowers.contains (h : Lowers tree config d t) {i : Nat} {s : DataSocket} (hi : t.socket? i = some s) :
    t.graph.contains s := by
  rw [h.socket?] at hi
  cases s with
  | input s =>
      obtain ⟨type, ht, -⟩ := h.completed.standing.input hi
      obtain ⟨e, -, -, he, -⟩ := Wiring.inputType_eq_ok_iff.mp ht
      obtain ⟨hsize, -⟩ := DataGraphBuilder.origins_eq_ok_iff.mp (DataGraphBuilder.build_eq_ok_iff.mp h.build).1
      simpa [Wiring.contains, ← hsize] using (Array.getElem?_eq_some_iff.mp he).1
  | output o =>
      obtain ⟨-, e, he, -⟩ := h.completed.standing.output hi
      simpa [Wiring.contains, h.outputs_eq] using (Array.getElem?_eq_some_iff.mp he).1

theorem Lowers.contains_side (h : Lowers tree config d t) {idname : String} {side : SnapshotNode → List Nat}
    {ss : List DataSocket} (hs : Side t tree idname side ss) : ∀ s ∈ ss, t.graph.contains s := by
  cases hs with
  | missing => simp
  | node _ _ _ _ hs =>
      intro s hmem
      obtain ⟨k, hk⟩ := List.mem_iff_getElem?.mp hmem
      obtain ⟨i, -, hi⟩ := (forall₂_iff_getElem?.mp hs.flip).2 hk
      exact h.contains hi

theorem exists_getElem?_side (hnumbers : tree.NumbersNodes) (hsingle : (tree.nodesOfType idname).length ≤ 1)
    {side : SnapshotNode → List Nat}
    {ss : List DataSocket} (hs : Side t tree idname side ss) {n : Nat} {node : SnapshotNode}
    (hn : tree.nodes[n]? = some node) (hid : node.idname = idname) {k i : Nat}
    (hi : (side node).dropLast[k]? = some i) : ∃ s, ss[k]? = some s ∧ t.socket? i = some s := by
  have honly := hnumbers.nodesOfType_eq_singleton hsingle hn hid
  cases hs with
  | missing hnone => simp [hnone] at honly
  | node hhead hn' _ _ hall =>
      rw [honly, List.head?_cons, Option.some.injEq] at hhead
      subst hhead
      rw [hn, Option.some.injEq] at hn'
      subst hn'
      exact (forall₂_iff_getElem?.mp hall).2 hi

theorem nodup_side {idname : String} {side : SnapshotNode → List Nat} {ss : List DataSocket}
    (hs : Side t tree idname side ss) : ss.Nodup := by
  cases hs with
  | missing => exact .nil
  | node _ _ _ hnodup _ => exact hnodup

theorem Lowers.functionGraph_eq (h : Lowers tree config d t) {sockets : InterfaceSockets}
    (hs : t.interface tree config = .ok sockets) : FunctionGraph.new t.graph sockets.inputs sockets.outputs =
      .ok ⟨t.graph, sockets.inputs, sockets.outputs⟩ := by
  obtain ⟨hin, hout⟩ := (interface_eq_ok_iff h.numbered).mp hs
  rw [FunctionGraph.new_eq_ok_iff, eraseDups_of_nodup (nodup_side hin), eraseDups_of_nodup (nodup_side hout)]
  exact ⟨rfl, fun s hmem => (List.mem_append.mp hmem).elim (h.contains_side hin s) (h.contains_side hout s)⟩

/-- The outputs that stand for those of the input node are the arguments. -/
theorem Lowers.mem_arguments (h : Lowers tree config d t) {inputs : List DataSocket}
    (hs : Side t tree config.inputNode SnapshotNode.outputs inputs) {n : Nat} {node : SnapshotNode} {entry : NodeEntry}
    (hn : tree.nodes[n]? = some node) (hid : node.idname = config.inputNode)
    (hstands : Lower.Stands tree config d node entry) {position : Nat} (hlt : position < entry.outputCount)
    (hdrop : position < node.outputs.length - 1) :
    DataSocket.output ⟨entry.firstOutput + position⟩ ∈ inputs := by
  have hat := List.getElem?_eq_getElem (l := node.outputs) (i := position) (by omega)
  have hat' : node.outputs.dropLast[position]? = _ := (List.getElem?_dropLast.trans (if_pos hdrop)).trans hat
  have hsocket := hstands.output hat
  rw [if_pos hlt] at hsocket
  obtain ⟨s, hmem, hi⟩ := exists_getElem?_side h.numbered (h.completed.single _ (by simp)) hs hn hid hat'
  rw [h.socket?, hsocket, Option.some.injEq] at hi
  exact hi ▸ List.mem_of_getElem? hmem

/-- Every output of a lowered tree is an argument or belongs to an operation. -/
theorem Lowers.standard (h : Lowers tree config d t) {sockets : InterfaceSockets}
    (hs : t.interface tree config = .ok sockets) :
    FunctionGraph.Standard ⟨t.graph, sockets.inputs, sockets.outputs⟩ := by
  obtain ⟨inputs, outputs⟩ := sockets
  intro o origin ho
  have ho' : d.builder.outputs[o]? = some origin := h.outputs_eq ▸ ho
  obtain ⟨entry, he, hlt, rfl⟩ := h.completed.typed.output_place ho'
  have he' : t.graph.nodes[origin.node.index]? = some entry := h.nodes_eq ▸ he
  by_cases hn : origin.node.index < tree.nodes.size
  · have hnode := Array.getElem?_eq_getElem hn
    obtain ⟨entry', hentry, hstands⟩ := h.completed.represented _ _ hnode
    rw [he, Option.some.injEq] at hentry
    subst hentry
    have hinserts := hstands.inserts
    generalize hf : entry.function = f at hinserts
    cases hinserts with
    | builtin hmem _ _ =>
        obtain ⟨op, hop⟩ := Inserters.exists_operation_of_mem hmem
        exact .inr ⟨entry, op, he', hf.trans hop⟩
    | results _ _ _ =>
        rw [NodeEntry.outputCount, hf] at hlt
        exact absurd hlt (Nat.not_lt_zero _)
    | arguments _ _ hid hp =>
        refine .inl ?_
        have hlen : entry.outputCount = tree.nodes[origin.node.index].outputs.length - 1 := by
          rw [NodeEntry.outputCount, hf, Builtin.functionInput, List.size_toArray, ← hp.length_eq, List.length_dropLast]
        rw [FunctionGraph.argument?, List.isSome_idxOf?]
        exact h.mem_arguments ((interface_eq_ok_iff h.numbered).mp hs).1 hnode hid hstands hlt (hlen ▸ hlt)
  · obtain ⟨op, hop⟩ := (h.completed.extra he (Nat.le_of_not_lt hn)).operation
    exact .inr ⟨entry, op, he', hop⟩

/-- A node of a lowered tree carries out an operation, or stands for an interface node. -/
theorem Lowers.function_cases (h : Lowers tree config d t) {n : Nat} {entry : NodeEntry}
    (hn : t.graph.nodes[n]? = some entry) :
    (∃ op : Operation, entry.function = op.function) ∨ entry.function.bodies = [] := by
  rw [h.nodes_eq] at hn
  by_cases hlt : n < tree.nodes.size
  · obtain ⟨entry', hentry, hstands⟩ := h.completed.represented _ _ (Array.getElem?_eq_getElem hlt)
    rw [hn, Option.some.injEq] at hentry
    subst hentry
    have hinserts := hstands.inserts
    generalize entry.function = f at hinserts ⊢
    cases hinserts with
    | builtin hmem _ _ => exact .inl (Inserters.exists_operation_of_mem hmem)
    | results => exact .inr rfl
    | arguments => exact .inr rfl
  · exact .inl (h.completed.extra hn (Nat.le_of_not_lt hlt)).operation

theorem Lowers.ignoresContext (h : Lowers tree config d t) (inputs outputs : List DataSocket) :
    FunctionGraph.IgnoresContext ⟨t.graph, inputs, outputs⟩ := by
  intro n entry hn
  rcases h.function_cases hn with ⟨op, hop⟩ | hnone
  · rw [hop]
    exact op.ignoresContext
  · refine ⟨fun body hbody => ?_, fun body hbody => ?_⟩
    · rw [Function.tupleCall?, hnone] at hbody
      cases hbody
    · rw [Function.lazyTupleCall?, hnone] at hbody
      cases hbody

theorem Lowers.leavesCounts (h : Lowers tree config d t) (inputs outputs : List DataSocket) :
    FunctionGraph.LeavesCounts ⟨t.graph, inputs, outputs⟩ := by
  intro n entry body hn hbody
  rcases h.function_cases hn with ⟨op, hop⟩ | hnone
  · exact op.leavesCount (hop ▸ hbody)
  · rw [Function.lazyTupleCall?, hnone] at hbody
    cases hbody

end Snapshot

end Nodeflow
