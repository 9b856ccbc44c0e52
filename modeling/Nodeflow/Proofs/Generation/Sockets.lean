import Nodeflow.Proofs.Generation.Acceptance
import Nodeflow.Proofs.Tree.Values

/-!
# The values of data sockets

In the data graph of a tree, an output of the input node is an argument, every other output is a
result of its node's operation, and an input has the value that its origin brings.
-/

namespace Nodeflow

theorem Value.converted_self {v : Value} {type : ValueType} (h : v.type = type) : v.converted type = v := by
  subst h
  cases v <;> rfl

theorem Builtin.conversion?_apply {v : Value} {type : ValueType} {f : Function}
    (h : conversion? v.type type = some f) :
    ∃ op : Operation, f = op.function ∧ op.apply [v] = some [v.converted type] := by
  generalize hv : v.type = source at h
  unfold conversion? at h
  split at h
  · obtain ⟨n, rfl⟩ := Value.exists_int hv
    cases h
    exact ⟨.intToFloat, rfl, rfl⟩
  · obtain ⟨x, rfl⟩ := Value.exists_float hv
    cases h
    exact ⟨.floatToInt, rfl, rfl⟩
  · cases h

namespace Tree

open Snapshot Lower LoweredTree DataGraphBuilder

namespace Generates

variable {t : Tree} {d : Draft} {lowered : LoweredTree} {sockets : InterfaceSockets} {g : FunctionGraph} {p : Package}
  {s : InputSocket} {o : OutputSocket} {m k : Nat} {entry : NodeEntry} {op : Operation} {xs ys args : List Value} {v : Value}

theorem sides (h : t.Generates {} d lowered sockets g p) :
    Side lowered (ofTree t) Idname.functionInput SnapshotNode.outputs g.inputs ∧
      Side lowered (ofTree t) Idname.functionOutput SnapshotNode.inputs g.outputs := by
  rw [h.graph_eq]
  exact (interface_eq_ok_iff h.lowers.numbered).mp h.interface

theorem node_eq (h : t.Generates {} d lowered sockets g p) : g.graph.nodes = d.builder.nodes := by
  rw [h.graph_eq]
  exact h.lowers.nodes_eq

theorem output_eq (h : t.Generates {} d lowered sockets g p) : g.graph.outputs = d.builder.outputs := by
  rw [h.graph_eq]
  exact h.lowers.outputs_eq

theorem outputType_eq_ok_iff (h : t.Generates {} d lowered sockets g p) {type : ValueType} :
    g.graph.outputType o = .ok type ↔ d.builder.outputType o = .ok type := by
  rw [Wiring.outputType_eq_ok_iff, Wiring.outputType_eq_ok_iff, h.node_eq, h.output_eq]

theorem exists_of_mem_inputs (h : t.Generates {} d lowered sockets g p) {s : DataSocket} (hs : s ∈ g.inputs) :
    ∃ (o : OutputSocket) (origin : OutputEntry) (entry : NodeEntry), s = .output o ∧
      g.graph.outputs[o.index]? = some origin ∧ g.graph.nodes[origin.node.index]? = some entry ∧
        entry.function.bodies = [] := by
  obtain ⟨hside, -⟩ := h.sides
  generalize g.inputs = inputs at hs hside
  cases hside with
  | missing => cases hs
  | @node n node inputs hhead hn hid hnodup hall =>
      obtain ⟨k, hk⟩ := List.mem_iff_getElem?.mp hs
      obtain ⟨i, hi, hstands⟩ := (forall₂_iff_getElem?.mp hall.flip).2 hk
      rw [List.getElem?_dropLast, Option.ite_none_right_eq_some] at hi
      obtain ⟨entry, he, hentry⟩ := h.lowers.completed.represented _ _ hn
      rw [h.lowers.socket?, hentry.output hi.2] at hstands
      split at hstands
      · rename_i hcount
        cases hstands
        obtain ⟨targets, ho⟩ := h.lowers.completed.typed.toNumbered.output_at he hcount
        refine ⟨_, _, entry, rfl, h.output_eq ▸ ho, h.node_eq ▸ he, ?_⟩
        have hinserts := hentry.inserts
        generalize entry.function = f at hinserts
        cases hinserts with
        | builtin hmem =>
            have hname := List.mem_map_of_mem (f := Prod.fst) hmem
            exact absurd hid (Functional.ne_interface hname).1
        | results => rfl
        | arguments => rfl
      · cases hstands

theorem argument?_input (h : t.Generates {} d lowered sockets g p) (s : InputSocket) :
    g.argument? (.input s) = none := by
  cases hk : g.argument? (.input s) with
  | none => rfl
  | some k =>
      obtain ⟨o, origin, entry, ho, -⟩ := h.exists_of_mem_inputs (List.mem_of_getElem? (FunctionGraph.getElem?_argument? hk))
      cases ho

theorem argument?_operation (h : t.Generates {} d lowered sockets g p) (hm : d.builder.nodes[m]? = some entry)
    (hf : entry.function = op.function) (hk : k < entry.outputCount) :
    g.argument? (.output ⟨entry.firstOutput + k⟩) = none := by
  cases hargument : g.argument? (.output ⟨entry.firstOutput + k⟩) with
  | none => rfl
  | some i =>
      obtain ⟨o, origin, entry', ho, horigin, hentry', hbodies⟩ :=
        h.exists_of_mem_inputs (List.mem_of_getElem? (FunctionGraph.getElem?_argument? hargument))
      cases ho
      obtain ⟨targets, hat⟩ := h.lowers.completed.typed.toNumbered.output_at hm hk
      rw [h.output_eq, hat, Option.some.injEq] at horigin
      subst horigin
      rw [h.node_eq, hm, Option.some.injEq] at hentry'
      subst hentry'
      rw [hf] at hbodies
      cases op <;> cases hbodies

theorem socketValue_argument (h : t.Generates {} d lowered sockets g p) {s : DataSocket} (hs : g.inputs[k]? = some s)
    (hv : args[k]? = some v) : g.socketValue h.frozen.wellFounded (args.map some) s = .ok v := by
  have hnodup : g.inputs.Nodup := nodup_side h.sides.1
  have hsource : g.source s = .ok (.argument k) := by
    unfold FunctionGraph.source
    rw [(FunctionGraph.argument?_eq_some_iff hnodup).mpr hs]
  rw [FunctionGraph.socketValue, hsource, ok_bind]
  exact FunctionGraph.argumentValue_eq_ok hv

theorem socketValue_origin (h : t.Generates {} d lowered sockets g p) (ho : HasOrigin d.builder s o) :
    g.socketValue h.frozen.wellFounded (args.map some) (.input s) =
      g.socketValue h.frozen.wellFounded (args.map some) (.output o) := by
  have hbuild := h.lowers.build
  rw [show lowered.graph = g.graph by rw [h.graph_eq]] at hbuild
  obtain ⟨e, he, rfl⟩ := ho.finished hbuild
  rw [FunctionGraph.socketValue, FunctionGraph.socketValue, g.source_input_eq_source he (h.argument?_input s)]

theorem socketValue_operation (h : t.Generates {} d lowered sockets g p) (hm : d.builder.nodes[m]? = some entry)
    (hf : entry.function = op.function) (hys : op.apply xs = some ys)
    (hxs : ∀ (i : Nat) x, xs[i]? = some x → g.socketValue h.frozen.wellFounded (args.map some)
      (.input ⟨entry.firstInput + i⟩) = .ok x) (hv : ys[k]? = some v) :
    g.socketValue h.frozen.wellFounded (args.map some) (.output ⟨entry.firstOutput + k⟩) = .ok v := by
  have hm' : g.graph.nodes[m]? = some entry := h.node_eq ▸ hm
  have htyped := Operation.typed_of_apply hys
  obtain ⟨ys', hys', htyped'⟩ := Operation.exists_apply htyped
  rw [hys, Option.some.injEq] at hys'
  subst hys'
  have hk : k < entry.outputCount := by
    rw [NodeEntry.outputCount, hf, ← htyped'.length_eq]
    exact (List.getElem?_eq_some_iff.mp hv).1
  have hinput (i : Nat) (x : Value) (hx : xs[i]? = some x) :
      g.inputValue h.frozen.wellFounded (args.map some) ⟨m⟩ i = .ok x := by
    have hi : i < entry.inputCount := by
      rw [NodeEntry.inputCount, hf, ← htyped.length_eq]
      exact (List.getElem?_eq_some_iff.mp hx).1
    exact FunctionGraph.socketValue_input_of_source _ (n := ⟨m⟩) hm' (NodeEntry.inputSockets_getElem? hi) (hxs i x hx)
  have houtputs : g.nodeOutputs h.frozen.wellFounded (args.map some) ⟨m⟩ = .ok ys := by
    rw [FunctionGraph.nodeOutputs_eq, Wiring.node_eq_ok_iff (n := ⟨m⟩).mpr hm', ok_bind]
    exact Operation.evaluate_eq_ok hf hys hinput
  obtain ⟨targets, ho⟩ := h.lowers.completed.typed.toNumbered.output_at hm hk
  have ho' : g.graph.output ⟨entry.firstOutput + k⟩ = .ok ⟨⟨m⟩, k, targets⟩ :=
    Wiring.output_eq_ok_iff.mpr (h.output_eq ▸ ho)
  have hsource : g.source (.output ⟨entry.firstOutput + k⟩) = .ok (.node ⟨entry.firstOutput + k⟩) := by
    rw [FunctionGraph.source, h.argument?_operation hm hf hk]
  rw [FunctionGraph.socketValue, hsource, ok_bind, FunctionGraph.sourceValue, FunctionGraph.outputValue, ho', ok_bind,
    houtputs, ok_bind, elementAt_eq_ok_iff, List.getElem?_toArray]
  exact hv

theorem socketValue_constant (h : t.Generates {} d lowered sockets g p) (hs : TakesConstant d.builder s v) :
    g.socketValue h.frozen.wellFounded (args.map some) (.input s) = .ok v := by
  obtain ⟨m, entry, hm, hf, ho⟩ := hs
  rw [h.socketValue_origin ho]
  have hfunction : entry.function = (Operation.constant v).function := hf
  have happly : (Operation.constant v).apply [] = some [v] := rfl
  exact h.socketValue_operation hm hfunction happly (by simp) (List.getElem?_cons_zero)

/-- What an input takes from an output is converted to its type. -/
theorem socketValue_carries (h : t.Generates {} d lowered sockets g p) (hs : Carries d.builder o s) {type : ValueType}
    (htype : d.builder.inputType s = .ok type) (hsuits : d.builder.outputType o = .ok v.type)
    (hv : g.socketValue h.frozen.wellFounded (args.map some) (.output o) = .ok v) :
    g.socketValue h.frozen.wellFounded (args.map some) (.input s) = .ok (v.converted type) := by
  cases hs with
  | direct ho =>
      obtain ⟨e, he, horigin⟩ := id ho
      obtain ⟨type', hout, hin⟩ := h.lowers.completed.typed.typed he horigin
      rw [hsuits] at hout
      rw [htype] at hin
      cases hout
      cases hin
      rw [h.socketValue_origin ho, hv, Value.converted_self rfl]
  | @converted source target f m between hs ht hf hm hfunction hin hout =>
      rw [hsuits] at hs
      rw [htype] at ht
      cases hs
      cases ht
      obtain ⟨op, hop, happly⟩ := Builtin.conversion?_apply hf
      rw [h.socketValue_origin hout]
      refine h.socketValue_operation hm (hfunction.trans hop) happly (fun i x hx => ?_) List.getElem?_cons_zero
      match i, hx with
      | 0, hx =>
          cases hx
          rw [Nat.add_zero, h.socketValue_origin hin, hv]

end Generates

end Tree

end Nodeflow
