import Nodeflow.Proofs.Builtin.Emission
import Nodeflow.Proofs.FunctionGraph.Program
import Nodeflow.Proofs.FunctionGraph.Standard

/-!
# The program of a graph of operations

The program of a graph of operations gives the values of its results, as the recursive evaluation
does.
-/

namespace Nodeflow

namespace FunctionGraph

variable {g : FunctionGraph} {args : List Value} {acyclic : WellFounded g.graph.Feeds}

/-- What is known of the outputs from the recursive evaluation. -/
noncomputable def valueOf? (g : FunctionGraph) (acyclic : WellFounded g.graph.Feeds) (args : List Value)
    (o : OutputSocket) : Option Value :=
  (g.outputValue acyclic (args.map some) o).toOption

theorem hasValue_of_socketValue {s : DataSocket} {v : Value}
    (h : g.socketValue acyclic (args.map some) s = .ok v) :
    g.HasValue args (g.valueOf? acyclic args) s v := by
  obtain ⟨source, hs, hv⟩ := bind_eq_ok_iff.mp h
  refine ⟨source, hs, ?_⟩
  cases source with
  | argument k =>
      simp only [sourceValue, argumentValue, bind_eq_ok_iff, elementAt_eq_ok_iff] at hv
      obtain ⟨v?, hk, hv⟩ := hv
      simp only [List.getElem?_toArray, List.getElem?_map, Option.map_eq_some_iff] at hk
      obtain ⟨w, hw, rfl⟩ := hk
      cases hv
      exact hw
  | node o =>
      rw [ValueSource.value?, valueOf?, show g.outputValue acyclic (args.map some) o = .ok v from hv]
      rfl

theorem exists_operations (hs : g.Standard) : ∃ op : DataNode → Operation, ∀ n entry, g.Needed n →
    g.graph.nodes[n.index]? = some entry → entry.function = (op n).function := by
  have hop (n : DataNode) : ∃ op : Operation, ∀ entry, g.Needed n →
      g.graph.nodes[n.index]? = some entry → entry.function = op.function := by
    by_cases hn : g.Needed n
    · obtain ⟨s, htakes⟩ := hn.exists_takesFrom
      obtain ⟨o, origin, ho, rfl, hnone⟩ := htakes.exists_output
      rcases hs o.index origin ho with hsome | ⟨entry, op, hentry, hf⟩
      · rw [hnone] at hsome
        cases hsome
      · refine ⟨op, fun entry' _ hentry' => ?_⟩
        rw [hentry] at hentry'
        cases hentry'
        exact hf
    · exact ⟨.switch, fun _ h => absurd h hn⟩
  choose op hop using hop
  exact ⟨op, hop⟩

theorem computes_valueOf? (hg : g.graph.Frozen) (hs : g.Standard) (ha : g.Accepts args) {op : DataNode → Operation}
    (hop : ∀ n entry, g.Needed n → g.graph.nodes[n.index]? = some entry → entry.function = (op n).function) :
    g.Computes (fun n xs ys => (op n).apply xs = some ys) args (g.valueOf? acyclic args) := by
  intro n entry hn hentry
  have hf := hop n entry hn hentry
  obtain ⟨xs, ys, hperf⟩ := exists_performs acyclic hg hs ha n entry (op n) hentry hf
  refine ⟨xs, ys, hperf.inputs.imp fun s v => hasValue_of_socketValue, hperf.apply, ?_⟩
  refine forall₂_iff_getElem?.mpr ⟨?_, fun {i o} hi => ?_⟩
  · rw [NodeEntry.length_outputSockets, NodeEntry.outputCount, hf, List.Forall₂.length_eq hperf.typed,
      Array.length_toList]
  · have hlt : i < entry.outputCount := by
      simpa using (List.getElem?_eq_some_iff.mp hi).1
    rw [NodeEntry.outputSockets_getElem? hlt] at hi
    cases hi
    obtain ⟨targets, htargets⟩ := hg.output_at hentry hlt
    obtain ⟨v, hv, hy, -⟩ := hperf.outputValue hg hf hentry htargets rfl
    refine ⟨v, hy, ?_⟩
    rw [valueOf?, hv]
    rfl

theorem emittable_of_operations {op : DataNode → Operation}
    (hop : ∀ n entry, g.Needed n → g.graph.nodes[n.index]? = some entry → entry.function = (op n).function) :
    g.Emittable (fun n xs ys => (op n).apply xs = some ys) fun n => (op n).function.outputs.size := by
  intro n entry hn hentry
  obtain ⟨emitter, hemitter, hemits⟩ := (op n).exists_emits
  have hf := hop n entry hn hentry
  refine ⟨emitter, by rw [hf]; exact hemitter, ?_⟩
  rw [NodeEntry.inputCount, NodeEntry.outputCount, hf]
  exact hemits

theorem emittable_of_standard {op : DataNode → Operation}
    (hop : ∀ n entry, g.Needed n → g.graph.nodes[n.index]? = some entry → entry.function = (op n).function) :
    g.Emittable (fun n xs ys => (op n).apply xs = some ys) fun _ => 3 := by
  intro n entry hn hentry
  obtain ⟨emitter, hemitter, hemits⟩ := emittable_of_operations hop n entry hn hentry
  exact ⟨emitter, hemitter, hemits.mono (op n).size_outputs_le⟩

end FunctionGraph

end Nodeflow
