import Nodeflow.Proofs.FunctionGraph.Dependencies
import Nodeflow.Proofs.OrderedMap

/-!
# Chains to arguments

The list that the analysis of dependencies finds for a result names the arguments to which a chain of
sockets leads back. A chain goes from an input of a node to its origin, and from an output of a node to
an input that the node reads for it, and it ends at the first socket that is an argument.
-/

namespace Nodeflow

/-- An input is listed among the dependencies of an output, or the function tells nothing about them. -/
def Function.Listed (f : Function) (o j : Nat) : Prop :=
  match f.dependencies? with
  | some d => ∃ list, f.dependenciesOf d o = .ok list ∧ j ∈ list
  | none => j < f.inputs.size

theorem Function.listed_iff {f : Function} {o j : Nat} : f.Listed o j ↔ ∃ read, f.reads o = .ok read ∧ j ∈ read := by
  unfold Listed reads
  cases f.dependencies? <;> simp

/-- One step back: from an input to its origin, or through a node. -/
inductive DataGraph.StepsBack (g : DataGraph) : DataSocket → DataSocket → Prop
  | link {s : InputSocket} {e : InputEntry OutputSocket} (he : g.inputs[s.index]? = some e) :
      StepsBack g (.input s) (.output e.origin)
  | node {o : OutputSocket} {origin : OutputEntry} {entry : NodeEntry} {j : Nat} {s : InputSocket}
      (ho : g.outputs[o.index]? = some origin) (hn : g.nodes[origin.node.index]? = some entry)
      (hlisted : entry.function.Listed origin.position j) (hs : g.inputSocket origin.node j = .ok s) :
      StepsBack g (.output o) (.input s)

namespace FunctionGraph

variable {g : FunctionGraph}

/-- A chain of steps leads back from a socket to an argument, past no other argument. -/
inductive Chain (g : FunctionGraph) (i : Nat) : DataSocket → Prop
  | argument {s : DataSocket} (hs : g.inputs[i]? = some s) : Chain g i s
  | step {s s' : DataSocket} (hs : s ∉ g.inputs) (hstep : g.graph.StepsBack s s') (h : Chain g i s') : Chain g i s

theorem argument?_eq_none_iff {s : DataSocket} : g.argument? s = none ↔ s ∉ g.inputs := by
  rw [argument?, List.idxOf?_eq_none_iff]

theorem Chain.exists_dependsOn (hnodup : g.inputs.Nodup) {i : Nat} {s : DataSocket} (h : g.Chain i s) :
    ∃ source, g.source s = .ok source ∧ g.DependsOn source i := by
  induction h with
  | argument hs =>
      refine ⟨.argument i, ?_, .argument i⟩
      unfold FunctionGraph.source
      rw [(argument?_eq_some_iff hnodup).mpr hs]
  | step hs hstep _ ih =>
      obtain ⟨source, hsource, hdepends⟩ := ih
      have hnone := argument?_eq_none_iff.mpr hs
      cases hstep with
      | link he => exact ⟨source, by rw [g.source_input_eq_source he hnone, hsource], hdepends⟩
      | node ho hn hlisted hs' =>
          obtain ⟨read, hread, hj⟩ := Function.listed_iff.mp hlisted
          refine ⟨_, by rw [FunctionGraph.source, hnone], .node ho hn hread hj ?_ hdepends⟩
          rw [inputSource, hs', ok_bind, hsource]

/-- A chain from the socket that a source stands for is found from each socket with that source. -/
theorem Chain.of_stands {i : Nat} {s : DataSocket} {source : ValueSource} (hsource : g.source s = .ok source)
    (h : ∀ t, g.Stands source t → g.Chain i t) : g.Chain i s := by
  cases s with
  | output o => exact h _ (stands_output hsource)
  | input s =>
      cases hs : g.argument? (.input s) with
      | some k =>
          rw [FunctionGraph.source, hs] at hsource
          cases hsource
          exact h _ (.argument (getElem?_argument? hs))
      | none =>
          -- an input that is no argument adds the link to its origin in front of the chain
          obtain ⟨e, he⟩ : ∃ e, g.graph.inputs[s.index]? = some e := by
            rw [FunctionGraph.source, hs] at hsource
            obtain ⟨e, he, -⟩ := bind_eq_ok_iff.mp hsource
            exact ⟨e, Wiring.input_eq_ok_iff.mp he⟩
          rw [g.source_input_eq_source he hs] at hsource
          exact .step (argument?_eq_none_iff.mp hs) (.link he) (h _ (stands_output hsource))

theorem DependsOn.chain {source : ValueSource} {i : Nat} (h : g.DependsOn source i) :
    ∀ {s : DataSocket}, g.source s = .ok source → g.Chain i s := by
  induction h with
  | argument i =>
      intro s hs
      refine .of_stands hs fun t ht => ?_
      cases ht with
      | argument ht => exact .argument ht
  | node ho hn hread hj hs' _ ih =>
      intro s hs
      refine .of_stands hs fun t ht => ?_
      cases ht with
      | node hnone =>
          rw [inputSource, bind_eq_ok_iff] at hs'
          obtain ⟨t, ht, hsource⟩ := hs'
          exact .step (argument?_eq_none_iff.mp hnone) (.node ho hn (Function.listed_iff.mpr ⟨_, hread, hj⟩) ht) (ih hsource)

theorem depends_iff_chain (hnodup : g.inputs.Nodup) {s : DataSocket} {list : List Nat} (h : g.Depends s list) {i : Nat} :
    i ∈ list ↔ g.Chain i s := by
  obtain ⟨source, hsource, hspec⟩ := h
  rw [hspec]
  refine ⟨fun hdepends => hdepends.chain hsource, fun hchain => ?_⟩
  obtain ⟨source', hsource', hdepends⟩ := hchain.exists_dependsOn hnodup
  rw [hsource, Except.ok.injEq] at hsource'
  exact hsource' ▸ hdepends

theorem readable_of_assembled (h : ∀ entry ∈ g.graph.nodes, entry.function.Assembled) : g.Readable :=
  fun _ entry _ hn _ hposition => (h entry (Array.mem_of_getElem? hn)).exists_reads hposition

/--
The analysis finds, for each result, the arguments to which a chain leads back, in increasing order, and a
function with the parameters of the graph takes them for its dependencies.
-/
theorem dependencies_are_chains {graph : DataGraph} {inputs outputs : List DataSocket}
    (hnew : FunctionGraph.new graph inputs outputs = .ok g) (hbuilt : graph.Built)
    (hnodes : ∀ entry ∈ graph.nodes, entry.function.Assembled) {f : Function} (hin : f.inputs.size = g.inputs.length)
    (hout : f.outputs.size = g.outputs.length) (hfree : f.hasBody .dependencies = false) :
    ∃ f' d, g.attachDependencies f = .ok f' ∧ f'.dependencies? = some d ∧
      ∀ k s, g.outputs[k]? = some s → ∃ list, f'.dependenciesOf d k = .ok list ∧ list.Pairwise (· < ·) ∧
        (∀ i, i ∈ list ↔ g.Chain i s) ∧
        ∀ i, ∃ answer, f'.dependsOn d k i = .ok answer ∧ (answer = true ↔ g.Chain i s) := by
  obtain ⟨rfl, hcontains⟩ := new_eq_ok_iff.mp hnew
  have hg := hbuilt.frozen
  obtain ⟨nodes, hneeded⟩ := exists_neededNodes hnew hg
  obtain ⟨lists, hd, hlists⟩ := exists_dependencies hg (fun s hs => hcontains s (List.mem_append_right _ hs))
    (readable_of_assembled hnodes) hneeded
  refine ⟨_, .ofLists lists, attachDependencies_eq hd hlists hin hout hfree, ?_, fun k s hs => ?_⟩
  · rw [Function.dependencies?_concat, Function.dependencies?_eq_none hfree]
    rfl
  · obtain ⟨found, hfound, hdepends⟩ := (forall₂_iff_getElem?.mp hlists).2 hs
    have hlist : Function.dependenciesOf { f with bodies := f.bodies ++ [.dependencies (.ofLists lists)] }
        (.ofLists lists) k = .ok (increasing found) := Function.dependenciesOf_ofLists_eq_ok_iff.mpr ⟨found, hfound, rfl⟩
    have hmem (i : Nat) : i ∈ increasing found ↔ Chain _ i s :=
      mem_increasing_iff.trans (depends_iff_chain (nodup_eraseDups _) hdepends)
    refine ⟨_, hlist, pairwise_increasing found, hmem, fun i => ⟨_, by rw [Function.dependsOn, hlist]; rfl, ?_⟩⟩
    rw [List.contains_iff_mem, hmem]

/-! ## The first of two arguments -/

/-- A function that ignores its second input. -/
def pickFirst : Function :=
  ⟨"Pick First", #[⟨"A", .float⟩, ⟨"B", .float⟩], #[⟨"A", .float⟩], [.dependencies (.ofLists [[0]])]⟩

theorem assembled_pickFirst : pickFirst.Assembled := by
  have hattach : Function.attach ⟨"Pick First", pickFirst.inputs, pickFirst.outputs, []⟩ (.dependencies (.ofLists [[0]])) =
      .ok pickFirst := by
    refine Function.attach_eq_ok_iff.mpr ⟨rfl, ?_, rfl⟩
    rintro _ ⟨⟩
    exact Function.checkDependencies_ofLists rfl (by simp [pickFirst])
  exact .attach (.new _ _ _) hattach

/-- Two outputs `x` and `y`, and a node that picks the first of them. -/
def pickGraph : DataGraph where
  nodes := #[⟨⟨"x, y", #[], #[⟨"x", .float⟩, ⟨"y", .float⟩], []⟩, none, 0, 0⟩, ⟨pickFirst, none, 0, 2⟩]
  inputs := #[⟨⟨1⟩, 0, ⟨0⟩⟩, ⟨⟨1⟩, 1, ⟨1⟩⟩]
  outputs := #[⟨⟨0⟩, 0, [⟨0⟩]⟩, ⟨⟨0⟩, 1, [⟨1⟩]⟩, ⟨⟨1⟩, 0, []⟩]

def picked : FunctionGraph := ⟨pickGraph, [.output ⟨0⟩, .output ⟨1⟩], [.output ⟨2⟩]⟩

theorem built_pickGraph : pickGraph.Built := by
  have hinserted := (DataGraphBuilder.Reachable.empty.insert
    ⟨"x, y", #[], #[⟨"x", .float⟩, ⟨"y", .float⟩], []⟩ none).insert pickFirst none
  have hfirst := hinserted.link ⟨0⟩ ⟨0⟩ (by with_unfolding_all rfl)
  have hlinked : DataGraphBuilder.Reachable ⟨pickGraph.nodes, #[⟨⟨1⟩, 0, some ⟨0⟩⟩, ⟨⟨1⟩, 1, some ⟨1⟩⟩],
      pickGraph.outputs⟩ := hfirst.link ⟨1⟩ ⟨1⟩ (by with_unfolding_all rfl)
  have harrows : pickGraph.nodes.toList.mapM pickGraph.feeders = .ok [[], [0, 0]] := rfl
  exact .of_reachable hlinked harrows (by decide +kernel)

theorem chain_picked : picked.Chain 0 (.output ⟨2⟩) := by
  refine .step (by decide) (.node (j := 0) (s := ⟨0⟩) rfl rfl ⟨[0], by with_unfolding_all rfl, by simp⟩ rfl) ?_
  exact .step (by decide) (.link rfl) (.argument rfl)

theorem not_chain_picked : ¬picked.Chain 1 (.output ⟨2⟩) := by
  intro h
  cases h with
  | argument hs => cases hs
  | step hs hstep h =>
    cases hstep with
    | node ho hn hlisted hs' =>
      cases ho
      cases hn
      obtain ⟨list, hlist, hj⟩ := hlisted
      obtain rfl : [0] = list := Except.ok.inj ((by with_unfolding_all rfl : _ = Except.ok [0]).symm.trans hlist)
      obtain rfl := List.mem_singleton.mp hj
      cases hs'
      cases h with
      | argument hs => cases hs
      | step hs hstep h =>
        cases hstep with
        | link he =>
          cases he
          cases h with
          | argument hs => cases hs
          | step hs => exact hs (by decide)

theorem dependencies_are_chains_picked : ∃ f' d list, picked.attachDependencies
      ⟨"f", #[⟨"x", .float⟩, ⟨"y", .float⟩], #[⟨"A", .float⟩], []⟩ = .ok f' ∧ f'.dependencies? = some d ∧
    f'.dependenciesOf d 0 = .ok list ∧ 0 ∈ list ∧ 1 ∉ list := by
  have hnew : FunctionGraph.new pickGraph [.output ⟨0⟩, .output ⟨1⟩] [.output ⟨2⟩] = .ok picked := rfl
  have hnodes : ∀ entry ∈ pickGraph.nodes, entry.function.Assembled := by
    intro entry hentry
    rcases List.mem_cons.mp (Array.mem_toList_iff.mpr hentry) with rfl | hentry
    · exact .new _ _ _
    · obtain rfl := List.mem_singleton.mp hentry
      exact assembled_pickFirst
  obtain ⟨f', d, hattach, hd, hresults⟩ := dependencies_are_chains hnew built_pickGraph hnodes
    (f := ⟨"f", #[⟨"x", .float⟩, ⟨"y", .float⟩], #[⟨"A", .float⟩], []⟩) rfl rfl rfl
  obtain ⟨list, hlist, -, hmem, -⟩ := hresults 0 (.output ⟨2⟩) rfl
  exact ⟨f', d, list, hattach, hd, hlist, (hmem 0).mpr chain_picked, fun h => not_chain_picked ((hmem 1).mp h)⟩

end FunctionGraph

end Nodeflow
