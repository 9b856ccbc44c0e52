import Nodeflow.Proofs.DataGraph.Wiring
import Nodeflow.Proofs.Walk.Order
import Mathlib.Order.WellFounded

/-!
# Finished data graphs

A graph that has been built is numbered and well typed, and no node feeds itself.
-/

namespace Nodeflow

namespace NodeEntry

variable {entry : NodeEntry}

theorem inputSockets_getElem? {k : Nat} (hk : k < entry.inputCount) :
    entry.inputSockets[k]? = some ⟨entry.firstInput + k⟩ := by
  simp [inputSockets, hk]

theorem outputSockets_getElem? {k : Nat} (hk : k < entry.outputCount) :
    entry.outputSockets[k]? = some ⟨entry.firstOutput + k⟩ := by
  simp [outputSockets, hk]

@[simp] theorem length_inputSockets : entry.inputSockets.length = entry.inputCount := by
  simp [inputSockets]

@[simp] theorem length_outputSockets : entry.outputSockets.length = entry.outputCount := by
  simp [outputSockets]

end NodeEntry

namespace DataGraph

variable {g : DataGraph}

/-- An output of the first node is the origin of an input of the second one. -/
def Feeds (g : DataGraph) (m n : DataNode) : Prop :=
  ∃ entry k e o, g.nodes[n.index]? = some entry ∧ k < entry.inputCount ∧
    g.inputs[entry.firstInput + k]? = some e ∧ g.outputs[e.origin.index]? = some o ∧ o.node = m

structure Frozen (g : DataGraph) : Prop extends Wiring.Numbered g where
  typed : ∀ {s : Nat} {e : InputEntry OutputSocket}, g.inputs[s]? = some e →
    ∃ t, g.outputType e.origin = .ok t ∧ g.inputType ⟨s⟩ = .ok t
  descends : ∃ rank : DataNode → Nat, ∀ m n, g.Feeds m n → rank m < rank n

theorem Frozen.wellFounded (h : g.Frozen) : WellFounded g.Feeds := by
  obtain ⟨rank, hr⟩ := h.descends
  exact Subrelation.wf (hr _ _) (measure rank).wf

/-- The graphs that a construction can end in. -/
def Built (g : DataGraph) : Prop :=
  ∃ b : DataGraphBuilder, b.Reachable ∧ b.build = .ok (.ok g)

theorem feeders_eq_ok_iff {entry : NodeEntry} {feeders : List Nat} :
    g.feeders entry = .ok feeders ↔ feeders.length = entry.inputCount ∧
      ∀ k < entry.inputCount, ∃ e o, g.inputs[entry.firstInput + k]? = some e ∧
        g.outputs[e.origin.index]? = some o ∧ feeders[k]? = some o.node.index := by
  rw [DataGraph.feeders, mapM_eq_ok_iff, forall₂_iff_getElem?, NodeEntry.length_inputSockets, eq_comm]
  refine and_congr_right fun _ => ⟨fun h k hk => ?_, fun h i s hs => ?_⟩
  · obtain ⟨n, hn, hf⟩ := h (NodeEntry.inputSockets_getElem? hk)
    simp only [bind_eq_ok_iff, Wiring.input_eq_ok_iff, Wiring.output_eq_ok_iff, pure_eq_ok_iff] at hf
    obtain ⟨e, he, o, ho, rfl⟩ := hf
    exact ⟨e, o, he, ho, hn⟩
  · have hlt : i < entry.inputCount := by
      simpa using (List.getElem?_eq_some_iff.mp hs).1
    rw [NodeEntry.inputSockets_getElem? hlt] at hs
    cases hs
    obtain ⟨e, o, he, ho, hn⟩ := h i hlt
    refine ⟨_, hn, ?_⟩
    simp only [bind_eq_ok_iff, Wiring.input_eq_ok_iff, Wiring.output_eq_ok_iff, pure_eq_ok_iff]
    exact ⟨e, he, o, ho, rfl⟩

theorem Feeds.leads (hg : Wiring.Numbered g) {arrows : Array (List Nat)}
    (ha : g.nodes.mapM g.feeders = .ok arrows) {m n : DataNode} (h : g.Feeds m n) :
    Leads arrows n.index m.index := by
  obtain ⟨hsize, harrows⟩ := array_mapM_eq_ok_iff.mp ha
  obtain ⟨entry, k, e, o, hn, hk, he, ho, rfl⟩ := h
  obtain ⟨feeders, hfeeders, hf⟩ := harrows hn
  obtain ⟨e', o', he', ho', hmem⟩ := (feeders_eq_ok_iff.mp hf).2 k hk
  rw [he] at he'
  cases he'
  rw [ho] at ho'
  cases ho'
  obtain ⟨entry', hm, -⟩ := hg.output_place ho
  exact ⟨feeders, hfeeders, List.mem_of_getElem? hmem,
    hsize ▸ (Array.getElem?_eq_some_iff.mp hm).1⟩

theorem descends_of_cycle? (hg : Wiring.Numbered g) (hc : g.cycle? = .ok none) :
    ∃ rank : DataNode → Nat, ∀ m n, g.Feeds m n → rank m < rank n := by
  simp only [cycle?, bind_eq_ok_iff, pure_eq_ok_iff] at hc
  obtain ⟨arrows, ha, hc⟩ := hc
  rw [(array_mapM_eq_ok_iff.mp ha).1] at hc
  obtain ⟨rank, hr⟩ := descends_of_cycle_eq_none (Option.map_eq_none_iff.mp hc)
  exact ⟨fun n => rank n.index, fun m n h => hr _ _ (h.leads hg ha)⟩

end DataGraph

namespace DataGraphBuilder

variable {b : DataGraphBuilder}

theorem origins_eq_ok_iff {inputs : Array (InputEntry OutputSocket)} :
    b.origins = .ok inputs ↔ b.inputs.size = inputs.size ∧
      ∀ {s : Nat} {e : InputEntry (Option OutputSocket)}, b.inputs[s]? = some e →
        ∃ origin, e.origin = some origin ∧ inputs[s]? = some ⟨e.node, e.position, origin⟩ := by
  rw [origins, array_mapM_eq_ok_iff]
  refine and_congr_right fun _ => ⟨fun h s e he => ?_, fun h s e he => ?_⟩
  · obtain ⟨e', he', hf⟩ := h he
    cases ho : e.origin with
    | none => simp [ho] at hf
    | some origin =>
        simp only [ho, Except.ok.injEq] at hf
        exact ⟨origin, rfl, hf ▸ he'⟩
  · obtain ⟨origin, ho, he'⟩ := h he
    exact ⟨_, he', by rw [ho]⟩

theorem build_eq_ok_iff {g : DataGraph} : b.build = .ok (.ok g) ↔
    b.origins = .ok g.inputs ∧ g.nodes = b.nodes ∧ g.outputs = b.outputs ∧ g.cycle? = .ok none := by
  unfold build
  cases ho : b.origins with
  | error e => simp
  | ok inputs =>
      simp only [bind_eq_ok_iff, Except.ok.injEq]
      constructor
      · rintro ⟨cycle, hc, h⟩
        cases cycle with
        | some n => simp at h
        | none =>
            cases h
            exact ⟨rfl, rfl, rfl, hc⟩
      · rintro ⟨rfl, hn, hout, hc⟩
        obtain ⟨nodes, inputs, outputs⟩ := g
        cases hn
        cases hout
        exact ⟨none, hc, rfl⟩

/-- The graph of a construction in which every input has an origin. -/
def finished (b : DataGraphBuilder) (inputs : Array (InputEntry OutputSocket)) : DataGraph :=
  ⟨b.nodes, inputs, b.outputs⟩

section

variable {inputs : Array (InputEntry OutputSocket)}

theorem origin_of_finished (ho : b.origins = .ok inputs) {s : Nat} {e : InputEntry OutputSocket}
    (he : inputs[s]? = some e) : b.inputs[s]? = some ⟨e.node, e.position, some e.origin⟩ := by
  obtain ⟨hsize, hinputs⟩ := origins_eq_ok_iff.mp ho
  have hlt : s < b.inputs.size := hsize ▸ (Array.getElem?_eq_some_iff.mp he).1
  obtain ⟨origin, horigin, he'⟩ := hinputs (Array.getElem?_eq_getElem hlt)
  rw [he] at he'
  cases he'
  rw [Array.getElem?_eq_getElem hlt, ← horigin]

theorem WellTyped.numbered_finished (h : WellTyped b) (ho : b.origins = .ok inputs) :
    Wiring.Numbered (b.finished inputs) := by
  obtain ⟨-, hinputs⟩ := origins_eq_ok_iff.mp ho
  refine ⟨fun hn hk => ?_, h.output_at, fun he => h.input_place (origin_of_finished ho he), h.output_place⟩
  obtain ⟨origin, hs⟩ := h.input_at hn hk
  obtain ⟨origin', -, hs'⟩ := hinputs hs
  exact ⟨origin', hs'⟩

theorem WellTyped.typed_finished (h : WellTyped b) (ho : b.origins = .ok inputs) {s : Nat}
    {e : InputEntry OutputSocket} (he : inputs[s]? = some e) :
    ∃ t, (b.finished inputs).outputType e.origin = .ok t ∧ (b.finished inputs).inputType ⟨s⟩ = .ok t := by
  obtain ⟨t, hout, hin⟩ := h.typed (origin_of_finished ho he) rfl
  refine ⟨t, ?_, ?_⟩
  · rw [Wiring.outputType_eq_ok_iff] at hout ⊢
    exact hout
  · obtain ⟨e', entry, p, he', hn, hp, rfl⟩ := Wiring.inputType_eq_ok_iff.mp hin
    rw [origin_of_finished ho he] at he'
    cases he'
    exact Wiring.inputType_eq_ok_iff.mpr ⟨e, entry, p, he, hn, hp, rfl⟩

end

theorem WellTyped.frozen (h : WellTyped b) {g : DataGraph} (hb : b.build = .ok (.ok g)) :
    g.Frozen := by
  obtain ⟨ho, hnodes, houtputs, hc⟩ := build_eq_ok_iff.mp hb
  obtain ⟨nodes, inputs, outputs⟩ := g
  cases hnodes
  cases houtputs
  have hnum := h.numbered_finished ho
  exact ⟨hnum, h.typed_finished ho, DataGraph.descends_of_cycle? hnum hc⟩

end DataGraphBuilder

theorem DataGraph.Built.frozen {g : DataGraph} (h : g.Built) : g.Frozen := by
  obtain ⟨b, hr, hb⟩ := h
  exact hr.wellTyped.frozen hb

/-- A graph is built if it can be linked up and a walk over what feeds its nodes finds no circle. -/
theorem DataGraph.Built.of_reachable {g : DataGraph} {arrows : List (List Nat)}
    (hreachable : DataGraphBuilder.Reachable ⟨g.nodes,
      (g.inputs.toList.map fun e => ⟨e.node, e.position, some e.origin⟩).toArray, g.outputs⟩)
    (harrows : g.nodes.toList.mapM g.feeders = .ok arrows)
    (hcycle : (walkFrom arrows.toArray (List.range arrows.length)).cycle = none) : g.Built := by
  have hlength : arrows.length = g.nodes.size := (mapM_eq_ok_iff.mp harrows).length_eq.symm
  refine ⟨_, hreachable, DataGraphBuilder.build_eq_ok_iff.mpr ⟨?_, rfl, rfl, ?_⟩⟩
  · rw [DataGraphBuilder.origins, Array.mapM_eq_mapM_toList, functor_map_eq_ok_iff]
    refine ⟨g.inputs.toList, ?_, Array.toArray_toList⟩
    rw [List.mapM_map, mapM_eq_ok_iff]
    exact List.forall₂_same.mpr fun _ _ => rfl
  · rw [cycle?, Array.mapM_eq_mapM_toList, harrows, ← hlength]
    exact congrArg (fun cycle => Except.ok (cycle.map DataNode.mk)) hcycle

end Nodeflow
