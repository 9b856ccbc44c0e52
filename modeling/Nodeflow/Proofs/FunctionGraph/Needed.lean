import Nodeflow.Proofs.FunctionGraph.Sources
import Mathlib.Data.List.Nodup

/-!
# The nodes that results are computed from

The needed nodes are those that a result takes its value from, directly or through the inputs of
other needed nodes. They are listed once each, after the nodes that they take values from.
-/

namespace Nodeflow

namespace FunctionGraph

variable {g : FunctionGraph}

/-- A socket takes its value from an output of a node. -/
def TakesFrom (g : FunctionGraph) (s : DataSocket) (n : DataNode) : Prop :=
  ∃ o origin, g.source s = .ok (.node o) ∧ g.graph.outputs[o.index]? = some origin ∧ origin.node = n

/-- The nodes that results are computed from. -/
inductive Needed (g : FunctionGraph) : DataNode → Prop
  | result {s : DataSocket} {n : DataNode} (hs : s ∈ g.outputs) (hn : g.TakesFrom s n) : Needed g n
  | input {m n : DataNode} {entry : NodeEntry} {s : InputSocket} (hm : Needed g m)
      (he : g.graph.nodes[m.index]? = some entry) (hs : s ∈ entry.inputSockets)
      (hn : g.TakesFrom (.input s) n) : Needed g n

/-- The list of the needed nodes. -/
structure Lists (g : FunctionGraph) (nodes : List DataNode) : Prop where
  nodup : nodes.Nodup
  mem_iff : ∀ n, n ∈ nodes ↔ g.Needed n
  ordered : ∀ (before : List DataNode) (n : DataNode) (after : List DataNode),
    nodes = before ++ n :: after → ∀ (entry : NodeEntry) (s : InputSocket) (m : DataNode),
      g.graph.nodes[n.index]? = some entry → s ∈ entry.inputSockets → g.TakesFrom (.input s) m → m ∈ before

theorem sourceNode?_eq_some_iff {s : DataSocket} {n : DataNode} :
    g.sourceNode? s = .ok (some n) ↔ g.TakesFrom s n := by
  rw [sourceNode?_eq, bind_eq_ok_iff, TakesFrom]
  constructor
  · rintro ⟨source, hs, h⟩
    cases source with
    | argument k => cases h
    | node o =>
        obtain ⟨origin, ho, hn⟩ := map_eq_ok_iff.mp h
        exact ⟨o, origin, hs, Wiring.output_eq_ok_iff.mp ho, Option.some.inj hn⟩
  · rintro ⟨o, origin, hs, ho, rfl⟩
    exact ⟨.node o, hs, map_eq_ok_iff.mpr ⟨origin, Wiring.output_eq_ok_iff.mpr ho, rfl⟩⟩

theorem mem_sourceNodes_iff {sockets : List DataSocket} {ns : List Nat}
    (h : g.sourceNodes sockets = .ok ns) {i : Nat} :
    i ∈ ns ↔ ∃ s ∈ sockets, g.TakesFrom s ⟨i⟩ := by
  simp only [sourceNodes, bind_eq_ok_iff, mapM_eq_ok_iff, pure_eq_ok_iff] at h
  obtain ⟨nodes?, hall, rfl⟩ := h
  induction hall with
  | nil => simp
  | @cons s n? sockets nodes? hs _ ih =>
      rw [List.exists_mem_cons_iff, ← ih, ← sourceNode?_eq_some_iff, hs]
      cases n? with
      | none => simp
      | some n =>
        cases n
        simp [eq_comm]

theorem feeds_of_takesFrom {m n : DataNode} {entry : NodeEntry} {s : InputSocket}
    (he : g.graph.nodes[m.index]? = some entry) (hs : s ∈ entry.inputSockets)
    (hn : g.TakesFrom (.input s) n) : g.graph.Feeds n m := by
  obtain ⟨o, origin, hsource, ho, rfl⟩ := hn
  obtain ⟨e, hin, rfl⟩ := g.source_input_eq_node hsource
  simp only [NodeEntry.inputSockets, List.mem_map, List.mem_range'_1] at hs
  obtain ⟨k, ⟨hge, hlt⟩, rfl⟩ := hs
  refine ⟨entry, k - entry.firstInput, e, origin, he, by omega, ?_, ho, rfl⟩
  rwa [Nat.add_sub_cancel' hge]

theorem TakesFrom.index_lt (hg : Wiring.Numbered g.graph) {s : DataSocket} {n : DataNode}
    (h : g.TakesFrom s n) : n.index < g.graph.nodes.size := by
  obtain ⟨o, origin, -, ho, rfl⟩ := h
  obtain ⟨entry, hn, -⟩ := hg.output_place ho
  exact (Array.getElem?_eq_some_iff.mp hn).1

theorem Needed.exists_entry (hg : Wiring.Numbered g.graph) {n : DataNode} (h : g.Needed n) :
    ∃ entry, g.graph.nodes[n.index]? = some entry := by
  cases h with
  | result _ hn => exact ⟨_, Array.getElem?_eq_getElem (hn.index_lt hg)⟩
  | input _ _ _ hn => exact ⟨_, Array.getElem?_eq_getElem (hn.index_lt hg)⟩

theorem leads_iff (hg : Wiring.Numbered g.graph) {arrows : Array (List Nat)}
    (ha : g.graph.nodes.mapM (fun n => g.sourceNodes (n.inputSockets.map .input)) = .ok arrows)
    {m n : Nat} : Leads arrows m n ↔ ∃ entry s, g.graph.nodes[m]? = some entry ∧
      s ∈ entry.inputSockets ∧ g.TakesFrom (.input s) ⟨n⟩ := by
  obtain ⟨hsize, harrows⟩ := array_mapM_eq_ok_iff.mp ha
  constructor
  · rintro ⟨targets, ht, hmem, -⟩
    have hlt : m < g.graph.nodes.size := hsize ▸ (Array.getElem?_eq_some_iff.mp ht).1
    have hentry := Array.getElem?_eq_getElem hlt
    obtain ⟨ns, hns, hsources⟩ := harrows hentry
    rw [ht] at hns
    cases hns
    obtain ⟨s, hs, htakes⟩ := (mem_sourceNodes_iff hsources).mp hmem
    obtain ⟨s', hs', rfl⟩ := List.mem_map.mp hs
    exact ⟨_, s', hentry, hs', htakes⟩
  · rintro ⟨entry, s, hentry, hs, htakes⟩
    obtain ⟨ns, hns, hsources⟩ := harrows hentry
    exact ⟨ns, hns, (mem_sourceNodes_iff hsources).mpr ⟨_, List.mem_map_of_mem hs, htakes⟩,
      hsize ▸ htakes.index_lt hg⟩

theorem needed_iff_reaches (hg : Wiring.Numbered g.graph) {arrows : Array (List Nat)}
    (ha : g.graph.nodes.mapM (fun n => g.sourceNodes (n.inputSockets.map .input)) = .ok arrows)
    {roots : List Nat} (hr : g.sourceNodes g.outputs = .ok roots) {i : Nat} :
    Reaches arrows roots i ↔ g.Needed ⟨i⟩ := by
  constructor
  · rintro ⟨r, hmem, -, hreach⟩
    induction hreach with
    | refl =>
        obtain ⟨s, hs, htakes⟩ := (mem_sourceNodes_iff hr).mp hmem
        exact .result hs htakes
    | tail _ hstep ih =>
        obtain ⟨entry, s, hentry, hs, htakes⟩ := (leads_iff hg ha).mp hstep
        exact .input ih hentry hs htakes
  · intro h
    have hall (n : DataNode) (hn : g.Needed n) : Reaches arrows roots n.index := by
      -- a needed node is a root, or an arrow leads to it from another needed node
      induction hn with
      | @result s n hs hn =>
          refine ⟨n.index, (mem_sourceNodes_iff hr).mpr ⟨s, hs, hn⟩, ?_, .refl⟩
          exact (array_mapM_eq_ok_iff.mp ha).1 ▸ hn.index_lt hg
      | @input m n entry s hm he hs hn ih =>
          obtain ⟨r, hmem, hlt, hreach⟩ := ih
          exact ⟨r, hmem, hlt, hreach.tail ((leads_iff hg ha).mpr ⟨entry, s, he, hs, hn⟩)⟩
    exact hall ⟨i⟩ h

theorem lists_neededNodes (hg : g.graph.Frozen) {nodes : List DataNode}
    (h : g.neededNodes = .ok nodes) : g.Lists nodes := by
  simp only [neededNodes, bind_eq_ok_iff, pure_eq_ok_iff] at h
  obtain ⟨arrows, ha, roots, hr, rfl⟩ := h
  obtain ⟨rank, hrank⟩ := hg.descends
  have hdescends : Walk.Descends arrows fun i => rank ⟨i⟩ := by
    intro m n hl
    obtain ⟨entry, s, hentry, hs, htakes⟩ := (leads_iff hg.toNumbered ha).mp hl
    exact hrank _ _ (feeds_of_takesFrom hentry hs htakes)
  obtain ⟨hnodup, hordered, hmem⟩ := order_walkFrom (cycle_walkFrom_eq_none hdescends roots)
  have hmk {n : DataNode} {order : List Nat} : n ∈ order.map DataNode.mk ↔ n.index ∈ order := by
    constructor
    · intro hn
      obtain ⟨i, hi, rfl⟩ := List.mem_map.mp hn
      exact hi
    · intro hn
      exact List.mem_map.mpr ⟨n.index, hn, rfl⟩
  refine ⟨List.Nodup.map (fun i j hij => by cases hij; rfl) hnodup, fun n => ?_, ?_⟩
  · rw [hmk, hmem]
    exact needed_iff_reaches hg.toNumbered ha hr
  · intro before n after he entry s m hentry hs htakes
    obtain ⟨first, rest, hsplit, rfl, hrest⟩ := List.map_eq_append_iff.mp he
    obtain ⟨i, last, rfl, rfl, -⟩ := List.map_eq_cons_iff.mp hrest
    rw [hmk]
    exact hordered first i last hsplit m.index ((leads_iff hg.toNumbered ha).mpr
      ⟨entry, s, hentry, hs, htakes⟩)

theorem exists_sourceNode?_input (hg : g.graph.Frozen) {n : Nat} {entry : NodeEntry}
    (hn : g.graph.nodes[n]? = some entry) {s : InputSocket} (hs : s ∈ entry.inputSockets) :
    ∃ n?, g.sourceNode? (.input s) = .ok n? := by
  simp only [NodeEntry.inputSockets, List.mem_map, List.mem_range'_1] at hs
  obtain ⟨k, ⟨hge, hlt⟩, rfl⟩ := hs
  obtain ⟨origin, he⟩ := hg.input_at hn (k := k - entry.firstInput) (by omega)
  rw [Nat.add_sub_cancel' hge] at he
  obtain ⟨t, ht, -⟩ := hg.typed he
  obtain ⟨o, -, -, ho, -⟩ := Wiring.outputType_eq_ok_iff.mp ht
  rw [sourceNode?_eq, g.source_input_eq he, ok_bind]
  cases (g.argument? (.input ⟨k⟩)).orElse fun _ => g.argument? (.output origin) with
  | some i => exact ⟨_, rfl⟩
  | none =>
      simp only [Option.elim_none]
      rw [Wiring.output_eq_ok_iff.mpr ho]
      exact ⟨_, rfl⟩

theorem exists_sourceNodes {sockets : List DataSocket}
    (h : ∀ s ∈ sockets, ∃ n?, g.sourceNode? s = .ok n?) : ∃ ns, g.sourceNodes sockets = .ok ns := by
  cases hm : sockets.mapM g.sourceNode? with
  | ok nodes? => exact ⟨_, by rw [sourceNodes, hm]; rfl⟩
  | error fault =>
      obtain ⟨s, hs, herror⟩ := exists_of_mapM_eq_error hm
      obtain ⟨n?, hok⟩ := h s hs
      rw [hok] at herror
      cases herror

theorem new_eq_ok_iff {graph : DataGraph} {inputs outputs : List DataSocket} :
    FunctionGraph.new graph inputs outputs = .ok g ↔
      g = ⟨graph, inputs.eraseDups, outputs.eraseDups⟩ ∧
        ∀ s ∈ inputs.eraseDups ++ outputs.eraseDups, graph.contains s := by
  unfold FunctionGraph.new
  dsimp only
  cases hfind : (inputs.eraseDups ++ outputs.eraseDups).find? fun s => !graph.contains s with
  | some s =>
      have hbad := List.find?_some hfind
      have hmem := List.mem_of_find?_eq_some hfind
      refine iff_of_false (by simp) fun h => ?_
      simp [h.2 s hmem] at hbad
  | none =>
      rw [List.find?_eq_none] at hfind
      simp only [Except.ok.injEq, eq_comm (a := g), iff_self_and]
      intro _ s hs
      simpa using hfind s hs

theorem exists_sourceNode? (hg : g.graph.Frozen) {s : DataSocket} (hs : g.graph.contains s) :
    ∃ n?, g.sourceNode? s = .ok n? := by
  cases s with
  | input s =>
      simp only [Wiring.contains, decide_eq_true_eq] at hs
      obtain ⟨entry, hn, hk, hplace⟩ := hg.input_place (Array.getElem?_eq_getElem hs)
      refine exists_sourceNode?_input hg hn ?_
      rw [NodeEntry.inputSockets, List.mem_map]
      exact ⟨s.index, List.mem_range'_1.mpr (by omega), rfl⟩
  | output o =>
      simp only [Wiring.contains, decide_eq_true_eq] at hs
      rw [sourceNode?_eq, source]
      cases g.argument? (.output o) with
      | some i => exact ⟨_, rfl⟩
      | none =>
          simp only [ok_bind]
          rw [Wiring.output_eq_ok_iff.mpr (Array.getElem?_eq_getElem hs)]
          exact ⟨_, rfl⟩

theorem exists_neededNodes {graph : DataGraph} {inputs outputs : List DataSocket}
    (hnew : FunctionGraph.new graph inputs outputs = .ok g) (hg : g.graph.Frozen) :
    ∃ nodes, g.neededNodes = .ok nodes := by
  obtain ⟨hdef, hall⟩ := new_eq_ok_iff.mp hnew
  have hcontains : ∀ s ∈ g.outputs, g.graph.contains s := by
    subst hdef
    exact fun s hs => hall s (List.mem_append_right _ hs)
  obtain ⟨roots, hroots⟩ := exists_sourceNodes fun s hs => exists_sourceNode? hg (hcontains s hs)
  have harrows : ∃ arrows, g.graph.nodes.toList.mapM
      (fun n => g.sourceNodes (n.inputSockets.map .input)) = .ok arrows := by
    cases ha : g.graph.nodes.toList.mapM fun n => g.sourceNodes (n.inputSockets.map .input) with
    | ok arrows => exact ⟨arrows, rfl⟩
    | error fault =>
        obtain ⟨entry, hmem, herror⟩ := exists_of_mapM_eq_error ha
        obtain ⟨n, hn⟩ := List.mem_iff_getElem?.mp hmem
        rw [Array.getElem?_toList] at hn
        have hsources : ∃ ns, g.sourceNodes (entry.inputSockets.map .input) = .ok ns := by
          refine exists_sourceNodes fun s hs => ?_
          obtain ⟨s', hs', rfl⟩ := List.mem_map.mp hs
          exact exists_sourceNode?_input hg hn hs'
        obtain ⟨ns, hns⟩ := hsources
        rw [herror] at hns
        cases hns
  obtain ⟨arrows, harrows⟩ := harrows
  have hneeded : g.neededNodes =
      .ok ((walkFrom arrows.toArray roots).order.toList.map .mk) := by
    rw [neededNodes, Array.mapM_eq_mapM_toList, harrows, hroots]
    rfl
  exact ⟨_, hneeded⟩

end FunctionGraph

end Nodeflow
