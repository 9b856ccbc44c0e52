import Nodeflow.Proofs.FunctionGraph.Chains

/-!
# Nodes upstream of the results

Going back from the results, from an input to its origin and from an output to the inputs of its node,
and no further at an argument, one comes to exactly the nodes that are listed as needed. The list has
each of them once, behind all nodes that feed it.
-/

namespace Nodeflow

open Relation

namespace FunctionGraph

variable {g : FunctionGraph} {m n : DataNode} {s : InputSocket} {o : OutputSocket}

/-- An output of a node, unless an argument is put in its place. -/
def Yields (g : FunctionGraph) (n : DataNode) (o : OutputSocket) : Prop :=
  .output o ∉ g.inputs ∧ ∃ origin, g.graph.outputs[o.index]? = some origin ∧ origin.node = n

/-- One step back from a socket that is no argument. -/
inductive GoesBack (g : FunctionGraph) : DataSocket → DataSocket → Prop
  | origin {s : InputSocket} {e : InputEntry OutputSocket} (hs : .input s ∉ g.inputs)
      (he : g.graph.inputs[s.index]? = some e) : GoesBack g (.input s) (.output e.origin)
  | node {n : DataNode} {o : OutputSocket} {k : Nat} {s : InputSocket} (ho : g.Yields n o)
      (hs : g.graph.inputSocket n k = .ok s) : GoesBack g (.output o) (.input s)

/-- A node is come to by going back from a result. -/
def Upstream (g : FunctionGraph) (n : DataNode) : Prop :=
  ∃ s ∈ g.outputs, ∃ o, ReflTransGen g.GoesBack s (.output o) ∧ g.Yields n o

/-- An input of the second node takes its value from the first one, and not from an argument. -/
def FeedsInput (g : FunctionGraph) (m n : DataNode) : Prop :=
  ∃ k s o, g.graph.inputSocket n k = .ok s ∧ g.GoesBack (.input s) (.output o) ∧ g.Yields m o

theorem takesFrom_output_iff : g.TakesFrom (.output o) n ↔ g.Yields n o := by
  rw [TakesFrom, Yields, ← argument?_eq_none_iff, source]
  cases g.argument? (.output o) with
  | some i => simp
  | none => simp

theorem takesFrom_input_iff :
    g.TakesFrom (.input s) n ↔ ∃ o, g.GoesBack (.input s) (.output o) ∧ g.Yields n o := by
  constructor
  · rintro ⟨o, origin, hsource, ho, rfl⟩
    obtain ⟨e, he, rfl⟩ := g.source_input_eq_node hsource
    have hs : g.argument? (.input s) = none := by
      cases hs : g.argument? (.input s) with
      | none => rfl
      | some i => simp [source, hs] at hsource
    rw [g.source_input_eq_source he hs] at hsource
    exact ⟨_, .origin (argument?_eq_none_iff.mp hs) he, takesFrom_output_iff.mp ⟨_, origin, hsource, ho, rfl⟩⟩
  · rintro ⟨o, hback, hyields⟩
    cases hback with
    | origin hs he =>
        obtain ⟨o', origin, hsource, ho, hn⟩ := takesFrom_output_iff.mpr hyields
        exact ⟨o', origin, (g.source_input_eq_source he (argument?_eq_none_iff.mpr hs)).trans hsource, ho, hn⟩

theorem exists_inputSocket_iff : (∃ k, g.graph.inputSocket n k = .ok s) ↔
    ∃ entry, g.graph.nodes[n.index]? = some entry ∧ s ∈ entry.inputSockets := by
  constructor
  · rintro ⟨k, hk⟩
    obtain ⟨entry, hn, hlt, rfl⟩ := Wiring.inputSocket_eq_ok_iff.mp hk
    exact ⟨entry, hn, List.mem_of_getElem? (NodeEntry.inputSockets_getElem? hlt)⟩
  · rintro ⟨entry, hn, hs⟩
    obtain ⟨k, hk⟩ := List.mem_iff_getElem?.mp hs
    have hlt : k < entry.inputCount := by
      simpa using (List.getElem?_eq_some_iff.mp hk).1
    rw [NodeEntry.inputSockets_getElem? hlt] at hk
    exact ⟨k, Wiring.inputSocket_eq_ok_iff.mpr ⟨entry, hn, hlt, (Option.some.inj hk).symm⟩⟩

theorem feedsInput_iff : g.FeedsInput m n ↔ ∃ entry s, g.graph.nodes[n.index]? = some entry ∧
    s ∈ entry.inputSockets ∧ g.TakesFrom (.input s) m := by
  constructor
  · rintro ⟨k, s, o, hk, hback, hyields⟩
    obtain ⟨entry, hn, hs⟩ := exists_inputSocket_iff.mp ⟨k, hk⟩
    exact ⟨entry, s, hn, hs, takesFrom_input_iff.mpr ⟨o, hback, hyields⟩⟩
  · rintro ⟨entry, s, hn, hs, htakes⟩
    obtain ⟨k, hk⟩ := exists_inputSocket_iff.mpr ⟨entry, hn, hs⟩
    obtain ⟨o, hback, hyields⟩ := takesFrom_input_iff.mp htakes
    exact ⟨k, s, o, hk, hback, hyields⟩

theorem needed_of_goesBack {s t : DataSocket} (hs : s ∈ g.outputs) (h : ReflTransGen g.GoesBack s t) :
    ∀ n, g.TakesFrom t n → g.Needed n := by
  induction h with
  | refl => exact fun n hn => .result hs hn
  | tail _ hstep ih =>
      intro n hn
      cases hstep with
      | origin hinput he =>
          -- an input takes its value from where its origin does
          exact ih n (takesFrom_input_iff.mpr ⟨_, .origin hinput he, takesFrom_output_iff.mp hn⟩)
      | node ho hk =>
          obtain ⟨entry, hentry, hmem⟩ := exists_inputSocket_iff.mp ⟨_, hk⟩
          exact .input (ih _ (takesFrom_output_iff.mpr ho)) hentry hmem hn

theorem upstream_iff_needed : g.Upstream n ↔ g.Needed n := by
  constructor
  · rintro ⟨s, hs, o, hback, hyields⟩
    exact needed_of_goesBack hs hback n (takesFrom_output_iff.mpr hyields)
  · intro h
    induction h with
    | @result s n hs hn =>
        cases s with
        | output o => exact ⟨_, hs, o, .refl, takesFrom_output_iff.mp hn⟩
        | input s =>
            obtain ⟨o, hback, hyields⟩ := takesFrom_input_iff.mp hn
            exact ⟨_, hs, o, .single hback, hyields⟩
    | input _ he hmem hn ih =>
        obtain ⟨s, hs, o, hreach, hyields⟩ := ih
        obtain ⟨k, hk⟩ := exists_inputSocket_iff.mpr ⟨_, he, hmem⟩
        obtain ⟨o', hback, hyields'⟩ := takesFrom_input_iff.mp hn
        exact ⟨s, hs, o', (hreach.tail (.node hyields hk)).tail hback, hyields'⟩

/--
The needed nodes of a built graph are found, whatever its arguments and results are: they are the nodes
upstream of the results, each once and behind all nodes that feed one of its inputs.
-/
theorem neededNodes_are_upstream {graph : DataGraph} {inputs outputs : List DataSocket}
    (hnew : FunctionGraph.new graph inputs outputs = .ok g) (hbuilt : graph.Built) :
    ∃ nodes, g.neededNodes = .ok nodes ∧ nodes.Nodup ∧ (∀ n, n ∈ nodes ↔ g.Upstream n) ∧
      ∀ before n after, nodes = before ++ n :: after → ∀ m, g.FeedsInput m n → m ∈ before := by
  have hg : g.graph.Frozen := (new_eq_ok_iff.mp hnew).1 ▸ hbuilt.frozen
  obtain ⟨nodes, hnodes⟩ := exists_neededNodes hnew hg
  have hlists := lists_neededNodes hg hnodes
  refine ⟨nodes, hnodes, hlists.nodup, fun n => (hlists.mem_iff n).trans upstream_iff_needed.symm, ?_⟩
  intro before n after hsplit m hfeeds
  obtain ⟨entry, s, hn, hs, htakes⟩ := feedsInput_iff.mp hfeeds
  exact hlists.ordered before n after hsplit entry s m hn hs htakes

/-! ## An argument in the middle -/

/-- The picked value and the second input are results, and `x` alone is an argument. -/
def pickedBeside : FunctionGraph := ⟨pickGraph, [.output ⟨0⟩], [.output ⟨2⟩, .input ⟨1⟩]⟩

theorem neededNodes_pickedBeside : FunctionGraph.new pickGraph [.output ⟨0⟩] [.output ⟨2⟩, .input ⟨1⟩, .output ⟨2⟩] =
      .ok pickedBeside ∧ pickGraph.Built ∧ ∃ nodes, pickedBeside.neededNodes = .ok nodes ∧ nodes.Nodup ∧
        (∀ n, n ∈ nodes ↔ pickedBeside.Upstream n) ∧ ∃ before after, nodes = before ++ ⟨1⟩ :: after ∧ ⟨0⟩ ∈ before := by
  have hnew : FunctionGraph.new pickGraph [.output ⟨0⟩] [.output ⟨2⟩, .input ⟨1⟩, .output ⟨2⟩] = .ok pickedBeside := rfl
  obtain ⟨nodes, hnodes, hnodup, hmem, hordered⟩ := neededNodes_are_upstream hnew built_pickGraph
  have hpick : pickedBeside.Upstream ⟨1⟩ := ⟨.output ⟨2⟩, by decide, ⟨2⟩, .refl, by decide, _, rfl, rfl⟩
  obtain ⟨before, after, hsplit⟩ := List.append_of_mem ((hmem _).mpr hpick)
  refine ⟨hnew, built_pickGraph, nodes, hnodes, hnodup, hmem, before, after, hsplit, ?_⟩
  exact hordered before _ after hsplit ⟨0⟩
    ⟨1, ⟨1⟩, ⟨1⟩, rfl, .origin (e := ⟨⟨1⟩, 1, ⟨1⟩⟩) (by decide) rfl, by decide, _, rfl, rfl⟩

end FunctionGraph

end Nodeflow
