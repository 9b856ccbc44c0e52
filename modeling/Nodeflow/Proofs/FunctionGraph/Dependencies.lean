import Nodeflow.FunctionGraph.Dependencies
import Nodeflow.Proofs.Function.Attaching
import Nodeflow.Proofs.FunctionGraph.Program
import Nodeflow.Proofs.FunctionGraph.Standard

/-!
# The analysis of dependencies

The needed nodes are looked at one after another, each after the nodes it takes values from. The
list that is found for a result holds exactly the arguments that the result depends on.
-/

namespace Nodeflow

namespace FunctionGraph

variable {g : FunctionGraph}

/-- A source is an argument, or it is computed from one through inputs that nodes on the way read. -/
inductive DependsOn (g : FunctionGraph) : ValueSource → Nat → Prop
  | argument (i : Nat) : DependsOn g (.argument i) i
  | node {o : OutputSocket} {origin : OutputEntry} {entry : NodeEntry} {read : List Nat} {j i : Nat}
      {source : ValueSource} (ho : g.graph.outputs[o.index]? = some origin)
      (hn : g.graph.nodes[origin.node.index]? = some entry)
      (hr : entry.function.reads origin.position = .ok read) (hj : j ∈ read)
      (hs : g.inputSource origin.node j = .ok source) (h : DependsOn g source i) : DependsOn g (.node o) i

theorem dependsOn_node_iff {o : OutputSocket} {origin : OutputEntry} {entry : NodeEntry} {read : List Nat}
    (ho : g.graph.outputs[o.index]? = some origin) (hn : g.graph.nodes[origin.node.index]? = some entry)
    (hr : entry.function.reads origin.position = .ok read) {i : Nat} : g.DependsOn (.node o) i ↔
      ∃ j ∈ read, ∃ source, g.inputSource origin.node j = .ok source ∧ g.DependsOn source i := by
  constructor
  · intro hdep
    cases hdep with
    | node ho' hn' hr' hj hs hdep =>
        obtain rfl := Option.some.inj (ho.symm.trans ho')
        obtain rfl := Option.some.inj (hn.symm.trans hn')
        rw [hr] at hr'
        cases hr'
        exact ⟨_, hj, _, hs, hdep⟩
  · rintro ⟨j, hj, source, hs, hdep⟩
    exact .node ho hn hr hj hs hdep

theorem DependsOn.lt {source : ValueSource} {i : Nat} (h : g.DependsOn source i) :
    ∀ {s : DataSocket}, g.source s = .ok source → i < g.inputs.length := by
  induction h with
  | argument i => exact argument_lt_of_source
  | node _ _ _ _ hs _ ih =>
      intro _ _
      rw [inputSource, bind_eq_ok_iff] at hs
      obtain ⟨s, -, hs⟩ := hs
      exact ih hs

/-- The nodes tell which of their inputs they read. -/
def Readable (g : FunctionGraph) : Prop :=
  ∀ n entry, g.Needed n → g.graph.nodes[n.index]? = some entry → ∀ position < entry.outputCount,
    ∃ read, entry.function.reads position = .ok read ∧ ∀ j ∈ read, j < entry.inputCount

/-- Some outputs have been looked at. -/
structure Reached (g : FunctionGraph) (done : DataNode → Nat → Prop) (known : Reachable) : Prop where
  size : known.size = g.graph.outputs.size
  found : ∀ {o : Nat} {origin : OutputEntry}, g.graph.outputs[o]? = some origin →
    done origin.node origin.position → ∃ list, known[o]? = some (some list) ∧
      ∀ i, i ∈ list ↔ g.DependsOn (.node ⟨o⟩) i

variable {done : DataNode → Nat → Prop} {known : Reachable}

theorem Reached.mono {done' : DataNode → Nat → Prop} (h : g.Reached done known)
    (hdone : ∀ n position, done' n position → done n position) : g.Reached done' known :=
  ⟨h.size, fun ho hn => h.found ho (hdone _ _ hn)⟩

theorem Reached.exists_argumentsOf (h : g.Reached done known) {s : DataSocket} {n? : Option DataNode}
    (hs : g.sourceNode? s = .ok n?) (hn : ∀ n, n? = some n → ∀ position, done n position) :
    ∃ list, g.argumentsOf known s = .ok list ∧
      ∃ source, g.source s = .ok source ∧ ∀ i, i ∈ list ↔ g.DependsOn source i := by
  rw [sourceNode?_eq, bind_eq_ok_iff] at hs
  obtain ⟨source, hsource, hs⟩ := hs
  rw [argumentsOf, hsource, ok_bind]
  cases source with
  | argument k =>
      refine ⟨[k], rfl, _, rfl, fun i => ?_⟩
      rw [List.mem_singleton]
      constructor
      · rintro rfl
        exact .argument _
      · intro h
        cases h
        rfl
  | node o =>
      obtain ⟨origin, ho, rfl⟩ := map_eq_ok_iff.mp hs
      obtain ⟨list, hlist, hspec⟩ := h.found (Wiring.output_eq_ok_iff.mp ho) (hn _ rfl _)
      refine ⟨list, ?_, _, rfl, hspec⟩
      dsimp only
      rw [hlist]
      rfl

theorem Reached.exists_argumentsOfOutput (h : g.Reached done known) (hg : g.graph.Frozen) {o : Nat}
    {origin : OutputEntry} {entry : NodeEntry} (ho : g.graph.outputs[o]? = some origin)
    (hn : g.graph.nodes[origin.node.index]? = some entry) {read : List Nat}
    (hr : entry.function.reads origin.position = .ok read) (hlt : ∀ j ∈ read, j < entry.inputCount)
    (hbefore : ∀ s ∈ entry.inputSockets, ∀ m, g.TakesFrom (.input s) m → ∀ position, done m position) :
    ∃ list, g.argumentsOfOutput known origin.node origin.position = .ok list ∧
      ∀ i, i ∈ list ↔ g.DependsOn (.node ⟨o⟩) i := by
  have hinput : ∀ j ∈ read, ∃ list, (do g.argumentsOf known (.input (← g.graph.inputSocket origin.node j))) = .ok list ∧
      ∃ source, g.inputSource origin.node j = .ok source ∧ ∀ i, i ∈ list ↔ g.DependsOn source i := by
    intro j hj
    have hsocket := Wiring.inputSocket_eq_ok_iff.mpr ⟨entry, hn, hlt j hj, rfl⟩
    have hmem := List.mem_of_getElem? (NodeEntry.inputSockets_getElem? (hlt j hj))
    obtain ⟨n?, hn?⟩ := exists_sourceNode?_input hg hn hmem
    rw [inputSource, hsocket, ok_bind, ok_bind]
    refine h.exists_argumentsOf hn? ?_
    rintro m rfl
    exact hbefore _ hmem m (sourceNode?_eq_some_iff.mp hn?)
  obtain ⟨lists, hlists⟩ := exists_forall₂ hinput
  refine ⟨increasing lists.flatten, ?_, fun i => ?_⟩
  · have hfunction : g.graph.function origin.node = .ok entry.function := by
      rw [Wiring.function, Wiring.node_eq_ok_iff.mpr hn]
      rfl
    rw [argumentsOfOutput, hfunction, ok_bind, hr, ok_bind, mapM_eq_ok_iff.mpr (hlists.imp fun _ _ h => h.1)]
    rfl
  · rw [mem_increasing_iff, List.mem_flatten, dependsOn_node_iff ho hn hr]
    constructor
    · rintro ⟨list, hmem, hi⟩
      obtain ⟨k, hk⟩ := List.mem_iff_getElem?.mp hmem
      obtain ⟨j, hj, -, source, hs, hspec⟩ := (forall₂_iff_getElem?.mp hlists.flip).2 hk
      exact ⟨j, List.mem_of_getElem? hj, source, hs, (hspec i).mp hi⟩
    · rintro ⟨j, hj, source, hs, hdep⟩
      obtain ⟨k, hk⟩ := List.mem_iff_getElem?.mp hj
      obtain ⟨list, hlist, -, source', hs', hspec⟩ := (forall₂_iff_getElem?.mp hlists).2 hk
      rw [hs] at hs'
      cases hs'
      exact ⟨list, List.mem_of_getElem? hlist, (hspec i).mpr hdep⟩

theorem Reached.store (h : g.Reached done known) (hg : Wiring.Numbered g.graph) {o : Nat} {origin : OutputEntry}
    (ho : g.graph.outputs[o]? = some origin) {list : List Nat} (hlist : ∀ i, i ∈ list ↔ g.DependsOn (.node ⟨o⟩) i) :
    g.Reached (fun n position => done n position ∨ n = origin.node ∧ position = origin.position)
      (known.setIfInBounds o (some list)) := by
  refine ⟨by simpa using h.size, fun {o' origin'} ho' hdone => ?_⟩
  rw [Array.getElem?_setIfInBounds]
  by_cases heq : o = o'
  · subst heq
    have hlt : o < known.size := h.size ▸ (Array.getElem?_eq_some_iff.mp ho).1
    exact ⟨list, by rw [if_pos rfl, if_pos hlt], hlist⟩
  · rw [if_neg heq]
    refine h.found ho' (hdone.resolve_right ?_)
    -- a place in a node has one socket
    rintro ⟨hnode, hposition⟩
    obtain ⟨entry, hn, -, rfl⟩ := hg.output_place ho
    obtain ⟨entry', hn', -, rfl⟩ := hg.output_place ho'
    rw [hnode, hn, Option.some.injEq] at hn'
    exact heq (by rw [hn', hposition])

theorem Reached.exists_reachNode (h : g.Reached done known) (hg : g.graph.Frozen) {n : DataNode} {entry : NodeEntry}
    (hn : g.graph.nodes[n.index]? = some entry)
    (hreads : ∀ position < entry.outputCount, ∃ read, entry.function.reads position = .ok read ∧
      ∀ j ∈ read, j < entry.inputCount)
    (hbefore : ∀ s ∈ entry.inputSockets, ∀ m, g.TakesFrom (.input s) m → ∀ position, done m position) :
    ∃ known', g.reachNode known n = .ok known' ∧ g.Reached (fun m position => done m position ∨ m = n) known' := by
  have hsteps (count : Nat) (hle : count ≤ entry.outputCount) : ∃ known', (List.range count).foldlM
      (fun known position => do
        let found ← g.argumentsOfOutput known n position
        return known.setIfInBounds (entry.firstOutput + position) (some found)) known = .ok known' ∧
          g.Reached (fun m position => done m position ∨ m = n ∧ position < count) known' := by
    -- one output after the other: the inputs belong to nodes that are looked at already
    induction count with
    | zero => exact ⟨known, rfl, h.mono fun _ _ hm => hm.resolve_right fun hm => Nat.not_lt_zero _ hm.2⟩
    | succ count ih =>
        obtain ⟨known', hknown, hreached⟩ := ih (by omega)
        obtain ⟨targets, ho⟩ := hg.output_at hn (k := count) (by omega)
        obtain ⟨read, hr, hlt⟩ := hreads count (by omega)
        obtain ⟨list, hlist, hspec⟩ := hreached.exists_argumentsOfOutput hg ho hn hr hlt fun s hs m hm position =>
          .inl (hbefore s hs m hm position)
        refine ⟨known'.setIfInBounds (entry.firstOutput + count) (some list), ?_,
          (hreached.store hg.toNumbered ho hspec).mono ?_⟩
        · rw [List.range_succ, List.foldlM_append, hknown, ok_bind, List.foldlM_cons, hlist]
          rfl
        · rintro m position (hm | ⟨rfl, hlt⟩)
          · exact .inl (.inl hm)
          · by_cases heq : position = count
            · exact .inr ⟨rfl, heq⟩
            · exact .inl (.inr ⟨rfl, by omega⟩)
  obtain ⟨known', hknown, hreached⟩ := hsteps entry.outputCount (Nat.le_refl _)
  refine ⟨known', ?_, hreached.size, fun {o origin} ho hdone => ?_⟩
  · rw [reachNode, Wiring.node_eq_ok_iff.mpr hn]
    exact hknown
  · refine hreached.found ho (hdone.imp_right ?_)
    intro hnode
    obtain ⟨entry', hn', hlt, -⟩ := hg.output_place ho
    rw [hnode, hn, Option.some.injEq] at hn'
    exact ⟨hnode, hn' ▸ hlt⟩

theorem exists_reached (hg : g.graph.Frozen) (hreads : g.Readable) {nodes : List DataNode} (hl : g.Lists nodes) :
    ∃ known, nodes.foldlM g.reachNode (Array.replicate g.graph.outputs.size none) = .ok known ∧
      g.Reached (fun n _ => n ∈ nodes) known := by
  have hall (before after : List DataNode) (known : Reachable) (hsplit : nodes = before ++ after)
      (h : g.Reached (fun n _ => n ∈ before) known) :
      ∃ known', after.foldlM g.reachNode known = .ok known' ∧ g.Reached (fun n _ => n ∈ nodes) known' := by
    -- the nodes before the next one are all that its inputs can lead to
    induction after generalizing before known with
    | nil => exact ⟨known, rfl, by rwa [hsplit, List.append_nil]⟩
    | cons n after ih =>
        have hneeded : g.Needed n := (hl.mem_iff n).mp (by simp [hsplit])
        obtain ⟨s, htakes⟩ := hneeded.exists_takesFrom
        obtain ⟨o, origin, -, ho, rfl⟩ := htakes
        obtain ⟨entry, hn, -⟩ := hg.output_place ho
        obtain ⟨known', hknown, hreached⟩ := h.exists_reachNode hg hn (hreads _ entry hneeded hn)
          fun s hs m hm _ => hl.ordered before _ after hsplit entry s m hn hs hm
        obtain ⟨known'', hrest, hdone⟩ := ih (before ++ [origin.node]) known' (by simp [hsplit])
          (hreached.mono fun m _ hm => by simpa using hm)
        exact ⟨known'', by rw [List.foldlM_cons, hknown, ok_bind, hrest], hdone⟩
  exact hall [] nodes _ rfl ⟨by simp, fun _ h => by cases h⟩

/-- The lists of a graph's results: each holds the arguments that its result depends on. -/
def Depends (g : FunctionGraph) (s : DataSocket) (list : List Nat) : Prop :=
  ∃ source, g.source s = .ok source ∧ ∀ i, i ∈ list ↔ g.DependsOn source i

theorem exists_dependencies (hg : g.graph.Frozen) (hout : ∀ s ∈ g.outputs, g.graph.contains s)
    (hreads : g.Readable) {nodes : List DataNode} (hnodes : g.neededNodes = .ok nodes) :
    ∃ lists, g.dependencies = .ok (.ofLists lists) ∧ List.Forall₂ g.Depends g.outputs lists := by
  have hl := lists_neededNodes hg hnodes
  obtain ⟨known, hknown, hreached⟩ := exists_reached hg hreads hl
  obtain ⟨lists, hlists⟩ := exists_forall₂ (l := g.outputs)
    (R := fun s list => g.argumentsOf known s = .ok list ∧ g.Depends s list) fun s hs => by
      obtain ⟨n?, hn?⟩ := exists_sourceNode? hg (hout s hs)
      refine hreached.exists_argumentsOf hn? ?_
      rintro n rfl _
      exact (hl.mem_iff n).mpr (.result hs (sourceNode?_eq_some_iff.mp hn?))
  refine ⟨lists, ?_, hlists.imp fun _ _ h => h.2⟩
  rw [dependencies, hnodes, ok_bind, hknown, ok_bind, mapM_eq_ok_iff.mpr (hlists.imp fun _ _ h => h.1)]
  rfl

/-- The lists fit a function with as many parameters as the graph has arguments and results. -/
theorem attachDependencies_eq {lists : List (List Nat)} (hd : g.dependencies = .ok (.ofLists lists))
    (hlists : List.Forall₂ g.Depends g.outputs lists) {f : Function} (hin : f.inputs.size = g.inputs.length)
    (hout : f.outputs.size = g.outputs.length) (hfree : f.hasBody .dependencies = false) :
    g.attachDependencies f = .ok { f with bodies := f.bodies ++ [.dependencies (.ofLists lists)] } := by
  rw [attachDependencies, hd, ok_bind]
  refine Function.attach_eq_ok_iff.mpr ⟨hfree, ?_, rfl⟩
  rintro _ ⟨⟩
  refine Function.checkDependencies_ofLists (by rw [hout, hlists.length_eq]) fun list hmem i hi => ?_
  obtain ⟨k, hk⟩ := List.mem_iff_getElem?.mp hmem
  obtain ⟨s, -, source, hsource, hspec⟩ := (forall₂_iff_getElem?.mp hlists.flip).2 hk
  exact hin ▸ ((hspec i).mp hi).lt hsource

end FunctionGraph

end Nodeflow
