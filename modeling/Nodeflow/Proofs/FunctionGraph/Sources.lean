import Nodeflow.FunctionGraph.Basic
import Nodeflow.Proofs.DataGraph.Frozen

/-!
# Where values come from

An input of a node takes its value from an argument, or from an output of a node that feeds it.
-/

namespace Nodeflow

namespace NodeEntry

/-- A table with something new for each output of a node. -/
def store {α : Type} (entry : NodeEntry) (xs : List α) (table : Array (Option α)) : Array (Option α) :=
  (entry.outputSockets.zip xs).foldl (fun table (s, x) => table.setIfInBounds s.index (some x)) table

theorem getElem?_storeFrom {α : Type} (first : Nat) (xs : List α) (table : Array (Option α)) (j : Nat) :
    ((((List.range' first xs.length).map OutputSocket.mk).zip xs).foldl
      (fun table (s, x) => table.setIfInBounds s.index (some x)) table)[j]? =
        if first ≤ j ∧ j < first + xs.length then table[j]?.map fun _ => xs[j - first]?
        else table[j]? := by
  induction xs generalizing first table with
  | nil => simp
  | cons x xs ih =>
      simp only [List.length_cons, List.range'_succ, List.map_cons, List.zip_cons_cons, List.foldl_cons]
      rw [ih, Array.getElem?_setIfInBounds]
      by_cases hj : first = j
      · subst hj
        rw [if_neg (by omega), if_pos rfl, Nat.sub_self]
        by_cases hlt : first < table.size <;> simp [hlt]
      · rw [if_neg hj]
        by_cases hin : first + 1 ≤ j ∧ j < first + 1 + xs.length
        · rw [if_pos hin, if_pos (by omega), show j - first = j - (first + 1) + 1 by omega,
            List.getElem?_cons_succ]
        · rw [if_neg hin, if_neg (by omega)]

variable {α : Type} {entry : NodeEntry} {xs : List α}

theorem getElem?_store (hlen : xs.length = entry.outputCount) (table : Array (Option α)) (j : Nat) :
    (entry.store xs table)[j]? =
      if entry.firstOutput ≤ j ∧ j < entry.firstOutput + entry.outputCount then
        table[j]?.map fun _ => xs[j - entry.firstOutput]?
      else table[j]? := by
  rw [store, outputSockets, ← hlen]
  exact getElem?_storeFrom entry.firstOutput xs table j

theorem size_store (entry : NodeEntry) (xs : List α) (table : Array (Option α)) :
    (entry.store xs table).size = table.size :=
  List.foldlRecOn (motive := fun t : Array (Option α) => t.size = table.size) _ _ rfl
    fun _ h _ _ => Array.size_setIfInBounds.trans h

theorem getElem?_store_position {ω : Type} {g : Wiring ω} {n : DataNode} (hg : Wiring.Numbered g)
    (hn : g.nodes[n.index]? = some entry) (hlen : xs.length = entry.outputCount)
    {table : Array (Option α)} (hsize : table.size = g.outputs.size) {i : Nat} (hi : i < xs.length) :
    (entry.store xs table)[entry.firstOutput + i]? = some (some xs[i]) := by
  obtain ⟨targets, htargets⟩ := hg.output_at hn (hlen ▸ hi)
  have hlt : entry.firstOutput + i < table.size := hsize ▸ (Array.getElem?_eq_some_iff.mp htargets).1
  rw [getElem?_store hlen, if_pos (by omega), Array.getElem?_eq_getElem hlt, Option.map_some,
    Nat.add_sub_cancel_left, List.getElem?_eq_getElem hi]

end NodeEntry

namespace FunctionGraph

/-- Where the value of an input of a node comes from. -/
def inputSource (g : FunctionGraph) (n : DataNode) (i : Nat) : Except Fault ValueSource := do
  g.source (.input (← g.graph.inputSocket n i))

variable (g : FunctionGraph)

theorem source_input_eq_node {s : InputSocket} {o : OutputSocket}
    (h : g.source (.input s) = .ok (.node o)) : ∃ e, g.graph.inputs[s.index]? = some e ∧ e.origin = o := by
  unfold source at h
  split at h
  · cases h
  · simp only [bind_eq_ok_iff, Wiring.input_eq_ok_iff] at h
    obtain ⟨e, he, h⟩ := h
    split at h
    · cases h
    · exact ⟨e, he, by cases h; rfl⟩

/-- An input takes its argument, the argument of its origin, or the value of its origin. -/
theorem source_input_eq {s : InputSocket} {e : InputEntry OutputSocket}
    (he : g.graph.inputs[s.index]? = some e) : g.source (.input s) =
      .ok (((g.argument? (.input s)).orElse fun _ => g.argument? (.output e.origin)).elim
        (.node e.origin) .argument) := by
  rw [source]
  cases g.argument? (.input s) with
  | some i => rfl
  | none =>
      dsimp only
      rw [Wiring.input_eq_ok_iff.mpr he, ok_bind, Option.orElse_none]
      cases g.argument? (.output e.origin) <;> rfl

theorem source_input_eq_source {s : InputSocket} {e : InputEntry OutputSocket}
    (he : g.graph.inputs[s.index]? = some e) (hnone : g.argument? (.input s) = none) :
    g.source (.input s) = g.source (.output e.origin) := by
  rw [g.source_input_eq he, hnone, source]
  cases g.argument? (.output e.origin) <;> rfl

theorem feeds_of_inputSource {n : DataNode} {i : Nat} {o : OutputSocket} {entry : OutputEntry}
    (hs : g.inputSource n i = .ok (.node o)) (ho : g.graph.output o = .ok entry) :
    g.graph.Feeds entry.node n := by
  rw [inputSource, bind_eq_ok_iff] at hs
  obtain ⟨s, hs, h⟩ := hs
  obtain ⟨e, he, rfl⟩ := g.source_input_eq_node h
  obtain ⟨m, hm, hi, rfl⟩ := Wiring.inputSocket_eq_ok_iff.mp hs
  exact ⟨m, i, e, entry, hm, hi, he, Wiring.output_eq_ok_iff.mp ho, rfl⟩

theorem sourceNode?_eq (s : DataSocket) :
    g.sourceNode? s = g.source s >>= fun
      | .argument _ => .ok none
      | .node o => (g.graph.output o).map fun origin => some origin.node := by
  rw [sourceNode?]
  congr 1

end FunctionGraph

end Nodeflow
