import Nodeflow.Proofs.Generation.Acceptance

/-!
# The shape of lowered trees

A lowered tree has one data node for each node of the tree, then one conversion for each link between a
whole number and a float, and then one constant for each input that no data output supplies. Every data
input that stands for a socket of the tree takes its value from one of the three.
-/

namespace Nodeflow

open Lower Inserters DataGraphBuilder

def DataGraph.HasOrigin (g : DataGraph) (s : InputSocket) (o : OutputSocket) : Prop :=
  ∃ e, g.inputs[s.index]? = some e ∧ e.origin = o

namespace Snapshot

variable {tree : Snapshot} {config : Config} {nodes : List Node} {d : Draft} {t : LoweredTree} {i : Nat} {s : InputSocket}

/-- The sockets that stand for something: those of builtin nodes, and what interface nodes declare. -/
inductive Covered (tree : Snapshot) (config : Config) (i : Nat) : Prop
  | builtin {j : Nat} {node : SnapshotNode} (hn : tree.nodes[j]? = some node) (hname : node.idname ∈ builtinNames)
      (hi : i ∈ node.inputs ++ node.outputs) : Covered tree config i
  | argument {j : Nat} {node : SnapshotNode} (hn : tree.nodes[j]? = some node) (hname : node.idname = config.inputNode)
      (hi : i ∈ node.outputs.dropLast) : Covered tree config i
  | result {j : Nat} {node : SnapshotNode} (hn : tree.nodes[j]? = some node) (hname : node.idname = config.outputNode)
      (hi : i ∈ node.inputs.dropLast) : Covered tree config i

/-- Where a data input that stands for a socket takes its value from. -/
inductive Fed (tree : Snapshot) (t : LoweredTree) (i : Nat) (s : InputSocket) : Prop
  | direct {a : Nat} {o : OutputSocket} (hsources : tree.mappedSources t.socket? i = [a])
      (hsame : tree.crosses a i = false) (ha : t.socket? a = some (.output o)) (ho : t.graph.HasOrigin s o)
  | converted {a k : Nat} (hsources : tree.mappedSources t.socket? i = [a])
      (hk : (tree.conversions t.socket? tree.sockets.size)[k]? = some (a, i))
  | constant {k : Nat} (hsources : tree.mappedSources t.socket? i = [])
      (hk : (tree.unsupplied t.socket? tree.sockets.size)[k]? = some i)

/-- The nodes of a lowered tree in their order, the origins of its inputs, and the sockets that have data sockets. -/
structure Shape (tree : Snapshot) (config : Config) (t : LoweredTree) : Prop where
  size : t.graph.nodes.size = tree.nodes.size + (tree.conversions t.socket? tree.sockets.size).length +
    (tree.unsupplied t.socket? tree.sockets.size).length
  node : ∀ {j : Nat} {node : SnapshotNode}, tree.nodes[j]? = some node → ∃ entry, t.graph.nodes[j]? = some entry ∧
    Inserts tree config node entry.function ∧ entry.source = some ⟨tree.name, node.name⟩
  conversion : ∀ {k a i : Nat}, (tree.conversions t.socket? tree.sockets.size)[k]? = some (a, i) →
    ∃ entry source target o s, t.graph.nodes[tree.nodes.size + k]? = some entry ∧ entry.source = none ∧
      tree.valueType? a = some source ∧ tree.valueType? i = some target ∧
      Builtin.conversion? source target = some entry.function ∧
      t.socket? a = some (.output o) ∧ t.socket? i = some (.input s) ∧
      t.graph.HasOrigin ⟨entry.firstInput⟩ o ∧ t.graph.HasOrigin s ⟨entry.firstOutput⟩
  constant : ∀ {k i : Nat}, (tree.unsupplied t.socket? tree.sockets.size)[k]? = some i →
    ∃ entry socket owner type value s,
      t.graph.nodes[tree.nodes.size + (tree.conversions t.socket? tree.sockets.size).length + k]? = some entry ∧
      tree.sockets[i]? = some socket ∧ tree.nodes[socket.node]? = some owner ∧
      entry.source = some ⟨tree.name, owner.name⟩ ∧ entry.function = Builtin.constant value ∧
      tree.valueType? i = some type ∧
      (∀ v, socket.port.defaultValue.map PortValue.toValue = some v → v.type = type → value = v) ∧
      ((∀ v, socket.port.defaultValue.map PortValue.toValue = some v → v.type ≠ type) → value = type.default) ∧
      t.socket? i = some (.input s) ∧ t.graph.HasOrigin s ⟨entry.firstOutput⟩
  fed : ∀ {i : Nat} {s : InputSocket}, t.socket? i = some (.input s) → Fed tree t i s
  injective : ∀ {i i' : Nat} {s : DataSocket}, t.socket? i = some s → t.socket? i' = some s → i = i'
  covered_iff : ∀ i, (∃ s, t.socket? i = some s) ↔ Covered tree config i

theorem Lowers.hasOrigin (h : Lowers tree config d t) {o : OutputSocket} (ho : HasOrigin d.builder s o) :
    t.graph.HasOrigin s o := ho.finished h.build

theorem Lowers.mapped (h : Lowers tree config d t) : t.socket? = d.socket? := funext h.socket?

/-- A data input stands for an input of the tree, since it would be left without an origin otherwise. -/
theorem Lowers.isInput (h : Lowers tree config d t) (hi : t.socket? i = some (.input s)) :
    ∃ socket, tree.sockets[i]? = some socket ∧ socket.isInput := by
  rw [h.socket?] at hi
  obtain ⟨socket, hsocket⟩ := h.completed.standing.exists_socket hi
  refine ⟨socket, hsocket, ?_⟩
  by_contra hin
  have hunlinked := h.completed.supplied hsocket hi
  rw [if_neg hin] at hunlinked
  exact not_unlinked_of_finished (build_eq_ok_iff.mp h.build).1 s hunlinked

theorem Lowers.mem_mappedInputs (h : Lowers tree config d t) (hi : t.socket? i = some (.input s)) :
    i ∈ tree.mappedInputs t.socket? tree.sockets.size := by
  obtain ⟨socket, hsocket, hin⟩ := h.isInput hi
  refine List.mem_filter.mpr ⟨List.mem_range.mpr (Array.getElem?_eq_some_iff.mp hsocket).1, ?_⟩
  rw [hsocket, hi, Option.any_some, hin]
  rfl

theorem Lowers.fed (h : Lowers tree config d t) (hi : t.socket? i = some (.input s)) : Fed tree t i s := by
  have hmem := h.mem_mappedInputs hi
  obtain ⟨socket, hsocket, hin⟩ := h.isInput hi
  have hsources := d.forall₂_mappedSources hsocket
  rw [h.socket?] at hi
  have hsupplied := h.completed.supplied hsocket hi
  rw [if_pos hin] at hsupplied
  rw [← h.mapped] at hsources
  generalize d.sources socket.links = os at hsources hsupplied
  match os, hsources, hsupplied with
  | [], hsources, hsupplied =>
      have hnil := List.forall₂_nil_right_iff.mp hsources
      have hloose : i ∈ tree.unsupplied t.socket? tree.sockets.size := List.mem_filter.mpr ⟨hmem, by rw [hnil]; rfl⟩
      obtain ⟨k, hk⟩ := List.mem_iff_getElem?.mp hloose
      exact .constant hnil hk
  | [o], hsources, hsupplied =>
      obtain ⟨a, _, ha, hnil, hlist⟩ := List.forall₂_cons_right_iff.mp hsources
      obtain rfl := List.forall₂_nil_right_iff.mp hnil
      obtain ⟨⟨source, hout, hsource⟩, -⟩ := h.completed.standing.output (h.socket? a ▸ ha)
      obtain ⟨target, hinput, htarget⟩ := h.completed.standing.input hi
      cases hcross : tree.crosses a i with
      | true =>
          have hlink : (a, i) ∈ tree.conversions t.socket? tree.sockets.size :=
            List.mem_flatMap.mpr ⟨i, hmem, List.mem_map.mpr ⟨a, List.mem_filter.mpr ⟨by simp [hlist], hcross⟩, rfl⟩⟩
          obtain ⟨k, hk⟩ := List.mem_iff_getElem?.mp hlink
          exact .converted hlist hk
      | false =>
          have hcarries : Carries d.builder o s := hsupplied
          cases hcarries with
          | direct ho => exact .direct hlist hcross ha (h.hasOrigin ho)
          | converted hs ht hf =>
              obtain rfl := Except.ok.inj (hs.symm.trans hout)
              obtain rfl := Except.ok.inj (ht.symm.trans hinput)
              rw [crosses_eq hsource htarget, hf] at hcross
              cases hcross

theorem Lowers.conversion (h : Lowers tree config d t) {k a : Nat}
    (hk : (tree.conversions t.socket? tree.sockets.size)[k]? = some (a, i)) : ∃ entry source target o s,
      t.graph.nodes[tree.nodes.size + k]? = some entry ∧ entry.source = none ∧
      tree.valueType? a = some source ∧ tree.valueType? i = some target ∧
      Builtin.conversion? source target = some entry.function ∧
      t.socket? a = some (.output o) ∧ t.socket? i = some (.input s) ∧
      t.graph.HasOrigin ⟨entry.firstInput⟩ o ∧ t.graph.HasOrigin s ⟨entry.firstOutput⟩ := by
  rw [h.mapped] at hk ⊢
  obtain ⟨ha, hi, hn, hnone, hs, ht, hf, hin, hout⟩ := h.completed.converted hk
  obtain ⟨⟨source, hs', hsource⟩, -⟩ := h.completed.standing.output ha
  obtain ⟨target, ht', htarget⟩ := h.completed.standing.input hi
  obtain rfl := Except.ok.inj (hs.symm.trans hs')
  obtain rfl := Except.ok.inj (ht.symm.trans ht')
  exact ⟨_, _, _, _, _, h.nodes_eq ▸ hn, hnone, hsource, htarget, hf, ha, hi, h.hasOrigin hin, h.hasOrigin hout⟩

theorem portValue_cases (port : PortSpec) (type : ValueType) :
    (∀ v, port.defaultValue.map PortValue.toValue = some v → v.type = type → portValue port type = v) ∧
      ((∀ v, port.defaultValue.map PortValue.toValue = some v → v.type ≠ type) → portValue port type = type.default) := by
  unfold portValue
  cases port.defaultValue.map PortValue.toValue with
  | none => exact ⟨nofun, fun _ => rfl⟩
  | some value =>
      refine ⟨fun v hv htype => ?_, fun h => ?_⟩
      · cases hv
        exact if_pos htype
      · exact if_neg (h value rfl)

theorem Lowers.constant (h : Lowers tree config d t) {k : Nat}
    (hk : (tree.unsupplied t.socket? tree.sockets.size)[k]? = some i) : ∃ entry socket owner type value s,
      t.graph.nodes[tree.nodes.size + (tree.conversions t.socket? tree.sockets.size).length + k]? = some entry ∧
      tree.sockets[i]? = some socket ∧ tree.nodes[socket.node]? = some owner ∧
      entry.source = some ⟨tree.name, owner.name⟩ ∧ entry.function = Builtin.constant value ∧
      tree.valueType? i = some type ∧
      (∀ v, socket.port.defaultValue.map PortValue.toValue = some v → v.type = type → value = v) ∧
      ((∀ v, socket.port.defaultValue.map PortValue.toValue = some v → v.type ≠ type) → value = type.default) ∧
      t.socket? i = some (.input s) ∧ t.graph.HasOrigin s ⟨entry.firstOutput⟩ := by
  rw [h.mapped] at hk ⊢
  obtain ⟨hi, hsocket, howner, hn, hsource, ht, hf, ho⟩ := h.completed.constants.added hk
  obtain ⟨type, ht', htype⟩ := h.completed.standing.input hi
  obtain rfl := Except.ok.inj (ht.symm.trans ht')
  obtain ⟨hsame, hother⟩ := portValue_cases _ _
  exact ⟨_, _, _, _, _, _, h.nodes_eq ▸ hn, hsocket, howner, hsource, hf, htype, hsame, hother, hi, h.hasOrigin ho⟩

theorem mem_dropLast_of_getElem? {xs : List Nat} {k : Nat} (hi : xs[k]? = some i) (hk : k < xs.length - 1) :
    i ∈ xs.dropLast := by
  refine List.mem_of_getElem? (i := k) ?_
  rw [List.getElem?_dropLast, if_pos hk, hi]

theorem Lowers.covered (h : Lowers tree config d t) (hc : tree.Copies nodes) {s : DataSocket} (hi : t.socket? i = some s) :
    Covered tree config i := by
  rw [h.socket?] at hi
  cases h.completed.represented.place hc h.completed.standing.size hi with
  | @input j k node entry hn he hat hk =>
      obtain ⟨entry', he', hstands⟩ := h.completed.represented _ _ hn
      obtain rfl := Option.some.inj (he.symm.trans he')
      obtain ⟨f, source, firstInput, firstOutput⟩ := entry
      cases hstands.inserts with
      | builtin hf => exact .builtin hn (List.mem_map_of_mem hf) (List.mem_append_left _ (List.mem_of_getElem? hat))
      | results _ hname hp =>
          refine .result hn hname (mem_dropLast_of_getElem? hat ?_)
          rw [← List.length_dropLast, hp.length_eq]
          simpa [NodeEntry.inputCount, Builtin.functionOutput] using hk
      | arguments => exact absurd hk (Nat.not_lt_zero k)
  | @output j k node entry hn he hat hk =>
      obtain ⟨entry', he', hstands⟩ := h.completed.represented _ _ hn
      obtain rfl := Option.some.inj (he.symm.trans he')
      obtain ⟨f, source, firstInput, firstOutput⟩ := entry
      cases hstands.inserts with
      | builtin hf => exact .builtin hn (List.mem_map_of_mem hf) (List.mem_append_right _ (List.mem_of_getElem? hat))
      | results => exact absurd hk (Nat.not_lt_zero k)
      | arguments _ _ hname hp =>
          refine .argument hn hname (mem_dropLast_of_getElem? hat ?_)
          rw [← List.length_dropLast, hp.length_eq]
          simpa [NodeEntry.outputCount, Builtin.functionInput] using hk

theorem Covered.exists_socket? (hcovered : Covered tree config i) (h : Lowers tree config d t)
    (hne : config.inputNode ≠ config.outputNode) (hin : config.inputNode ∉ builtinNames)
    (hout : config.outputNode ∉ builtinNames) : ∃ s, t.socket? i = some s := by
  rw [h.mapped]
  cases hcovered with
  | @builtin j node hn hname hi =>
      obtain ⟨entry, he, hstands⟩ := h.completed.represented _ _ hn
      obtain ⟨hinputs, houtputs⟩ := hstands.inserts.size_eq hname
      rcases List.mem_append.mp hi with hi | hi
      · obtain ⟨k, hk⟩ := List.mem_iff_getElem?.mp hi
        refine ⟨_, (hstands.input hk).trans (if_pos ?_)⟩
        rw [NodeEntry.inputCount, hinputs]
        exact (List.getElem?_eq_some_iff.mp hk).1
      · obtain ⟨k, hk⟩ := List.mem_iff_getElem?.mp hi
        refine ⟨_, (hstands.output hk).trans (if_pos ?_)⟩
        rw [NodeEntry.outputCount, houtputs]
        exact (List.getElem?_eq_some_iff.mp hk).1
  | @argument j node hn hname hi =>
      obtain ⟨entry, he, hstands⟩ := h.completed.represented _ _ hn
      obtain ⟨k, hk, hlt⟩ := exists_getElem?_of_mem_dropLast hi
      obtain ⟨f, source, firstInput, firstOutput⟩ := entry
      cases hstands.inserts with
      | builtin hf => exact absurd (hname ▸ List.mem_map_of_mem hf) hin
      | results _ hname' => exact absurd (hname.symm.trans hname') hne
      | arguments _ _ _ hp =>
          refine ⟨_, (hstands.output hk).trans (if_pos ?_)⟩
          rw [← List.length_dropLast, hp.length_eq] at hlt
          simpa [NodeEntry.outputCount, Builtin.functionInput] using hlt
  | @result j node hn hname hi =>
      obtain ⟨entry, he, hstands⟩ := h.completed.represented _ _ hn
      obtain ⟨k, hk, hlt⟩ := exists_getElem?_of_mem_dropLast hi
      obtain ⟨f, source, firstInput, firstOutput⟩ := entry
      cases hstands.inserts with
      | builtin hf => exact absurd (hname ▸ List.mem_map_of_mem hf) hout
      | arguments _ hne' => exact absurd hname hne'
      | results _ _ hp =>
          refine ⟨_, (hstands.input hk).trans (if_pos ?_)⟩
          rw [← List.length_dropLast, hp.length_eq] at hlt
          simpa [NodeEntry.inputCount, Builtin.functionOutput] using hlt

end Snapshot

namespace Tree

open Snapshot

theorem lowered_has_shape {t : Tree} {config : Config} (hne : config.inputNode ≠ config.outputNode)
    (hin : config.inputNode ∉ builtinNames) (hout : config.outputNode ∉ builtinNames) {lowered : LoweredTree}
    (h : (ofTree t).lower config (.builtin config) = .ok (.ok lowered)) : Shape (ofTree t) config lowered := by
  have hc := copies_ofTree t
  obtain ⟨d, hd⟩ := exists_lowers hc h
  refine ⟨?_, fun {j node} hn => ?_, hd.conversion, hd.constant, hd.fed, fun {i i' s} hi hi' => ?_,
    fun i => ⟨fun ⟨s, hs⟩ => hd.covered hc hs, fun hcovered => hcovered.exists_socket? hd hne hin hout⟩⟩
  · rw [hd.nodes_eq, hd.mapped]
    exact hd.completed.constants.size
  · obtain ⟨entry, he, hstands⟩ := hd.completed.represented j node hn
    exact ⟨entry, hd.nodes_eq ▸ he, hstands.inserts, hstands.source⟩
  · rw [hd.socket?] at hi hi'
    exact hd.completed.standing.injective hi hi'

theorem lowered_has_shape_mixedSum : ∃ lowered, (ofTree mixedSum).lower {} (.builtin {}) = .ok (.ok lowered) ∧
    Shape (ofTree mixedSum) {} lowered ∧ lowered.graph.nodes.size = 4 ∧
      ((ofTree mixedSum).conversions lowered.socket? (ofTree mixedSum).sockets.size).length = 1 := by
  rcases functional_mixedSum.lower_cases with ⟨⟨lowered, hlower⟩, -⟩ | ⟨-, hnone⟩
  · have hsize : ((ofTree mixedSum).lower {} (.builtin {})).toOption.map (fun result => result.toOption.map fun lowered =>
        (lowered.graph.nodes.size, ((ofTree mixedSum).conversions lowered.socket? (ofTree mixedSum).sockets.size).length)) =
        some (some (4, 1)) := by decide +kernel
    simp only [hlower, Except.toOption, Option.map_some, Option.some.injEq, Prod.mk.injEq] at hsize
    exact ⟨lowered, hlower, lowered_has_shape (by decide) (by decide) (by decide) hlower, hsize⟩
  · obtain ⟨order, horder⟩ := exists_order_mixedSum
    rw [horder] at hnone
    cases hnone

end Tree

end Nodeflow
