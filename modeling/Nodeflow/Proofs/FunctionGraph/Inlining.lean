import Nodeflow.Proofs.FunctionGraph.Program
import Nodeflow.Proofs.Program.Renumbering

/-!
# Inlining programs into a graph

A graph whose nodes have programs can be run node by node, each program on its own. The program of
the graph gives the same results as long as no program of a needed node writes an input register:
registers are shared between nodes, and what is written over is lost for the others.
-/

namespace Nodeflow

namespace FunctionGraph

def valueIn (g : FunctionGraph) (args : List Value) (table : Array (Option Value)) (s : DataSocket) :
    Except Fault Value :=
  g.source s >>= fun source =>
    match source.value? args fun o => (table[o.index]?).join with
    | some v => .ok v
    | none => .error .noEntry

/-- Runs the program of a node on the values of its inputs, and keeps the outputs. -/
def runNode (g : FunctionGraph) (programs : DataNode → Program) (args : List Value)
    (table : Array (Option Value)) (n : DataNode) : Except Fault (Array (Option Value)) := do
  let entry ← g.graph.node n
  let xs ← entry.inputSockets.mapM fun s => g.valueIn args table (.input s)
  let ys ← (programs n).execute xs
  return (entry.outputSockets.zip ys).foldl (fun table (s, v) => table.setIfInBounds s.index (some v)) table

def runNodes (g : FunctionGraph) (programs : DataNode → Program) (order : List DataNode)
    (args : List Value) : Except Fault (List Value) := do
  if args.length ≠ g.inputs.length then
    throw (.argumentCount args.length g.inputs.length)
  let table ← order.foldlM (g.runNode programs args) (Array.replicate g.graph.outputs.size none)
  g.outputs.mapM (g.valueIn args table)

variable {g : FunctionGraph} {programs : DataNode → Program} {args : List Value}
  {table table' : Array (Option Value)}

theorem valueIn_eq_ok_iff {s : DataSocket} {v : Value} : g.valueIn args table s = .ok v ↔
    g.HasValue args (fun o => (table[o.index]?).join) s v := by
  rw [valueIn, bind_eq_ok_iff, HasValue]
  refine exists_congr fun source => and_congr_right fun _ => ?_
  cases source.value? args fun o => (table[o.index]?).join with
  | some w => simp
  | none => simp

/-- Nodes that have been run agree with the table of outputs. -/
structure Ran (g : FunctionGraph) (programs : DataNode → Program) (args : List Value)
    (done : List DataNode) (table : Array (Option Value)) : Prop where
  size : table.size = g.graph.outputs.size
  origin : ∀ (o : Nat) (v : Value), table[o]? = some (some v) →
    ∃ origin, g.graph.outputs[o]? = some origin ∧ origin.node ∈ done
  node : ∀ n ∈ done, ∀ entry, g.graph.nodes[n.index]? = some entry → ∃ xs ys,
    List.Forall₂ (fun s v => g.HasValue args (fun o => (table[o.index]?).join) (.input s) v)
      entry.inputSockets xs ∧ (programs n).execute xs = .ok ys ∧
        List.Forall₂ (fun o v => table[o.index]? = some (some v)) entry.outputSockets ys

theorem HasValue.mono {known known' : OutputSocket → Option Value} {s : DataSocket} {v : Value}
    (h : g.HasValue args known s v) (hknown : ∀ o v, known o = some v → known' o = some v) :
    g.HasValue args known' s v := by
  obtain ⟨source, hs, hv⟩ := h
  refine ⟨source, hs, ?_⟩
  cases source with
  | argument i => exact hv
  | node o => exact hknown o v hv

theorem ran_start (g : FunctionGraph) (programs : DataNode → Program) (args : List Value) :
    g.Ran programs args [] (Array.replicate g.graph.outputs.size none) := by
  refine ⟨by simp, fun o v h => ?_, by simp⟩
  rw [Array.getElem?_replicate] at h
  split at h <;> simp at h

namespace Ran

variable {done : List DataNode} {n : DataNode}

theorem store_keeps (h : g.Ran programs args done table) (hg : Wiring.Numbered g.graph) (hn : n ∉ done)
    {entry : NodeEntry} (hentry : g.graph.nodes[n.index]? = some entry) {ys : List Value}
    (hlen : ys.length = entry.outputCount) (o : OutputSocket) (v : Value)
    (ho : (table[o.index]?).join = some v) : ((entry.store ys table)[o.index]?).join = some v := by
  rw [NodeEntry.getElem?_store hlen, if_neg]
  · exact ho
  · obtain ⟨origin, horigin, hmem⟩ := h.origin o.index v (Option.join_eq_some_iff.mp ho)
    rw [hg.output_iff hentry horigin]
    rintro rfl
    exact hn hmem

theorem runNode (h : g.Ran programs args done table) (hg : Wiring.Numbered g.graph) (hn : n ∉ done)
    (hlen : ∀ entry, g.graph.nodes[n.index]? = some entry → (programs n).outputs.length = entry.outputCount)
    (hrun : g.runNode programs args table n = .ok table') :
    g.Ran programs args (done ++ [n]) table' := by
  simp only [FunctionGraph.runNode, bind_eq_ok_iff, Wiring.node_eq_ok_iff, mapM_eq_ok_iff, valueIn_eq_ok_iff,
    pure_eq_ok_iff] at hrun
  obtain ⟨entry, hentry, xs, hxs, ys, hys, rfl⟩ := hrun
  have hcount : ys.length = entry.outputCount := by
    obtain ⟨-, _, _, -, -, hhold⟩ := Program.execute_eq_ok_iff.mp hys
    rw [← List.Forall₂.length_eq hhold, hlen entry hentry]
  have hkeep := h.store_keeps hg hn hentry hcount
  change g.Ran programs args (done ++ [n]) (entry.store ys table)
  refine ⟨by rw [NodeEntry.size_store, h.size], fun o v ho => ?_, fun m hm entry' hm' => ?_⟩
  · rw [NodeEntry.getElem?_store hcount] at ho
    split at ho
    · rename_i hin
      obtain ⟨origin, horigin, rfl, -⟩ := hg.exists_output hentry hin
      exact ⟨origin, horigin, by simp⟩
    · obtain ⟨origin, horigin, hmem⟩ := h.origin o v ho
      exact ⟨origin, horigin, by simp [hmem]⟩
  · rcases List.mem_append.mp hm with hm | hm
    · obtain ⟨xs', ys', hxs', hexec, hys'⟩ := h.node m hm entry' hm'
      exact ⟨xs', ys', hxs'.imp fun s v hv => hv.mono hkeep, hexec, hys'.imp fun o v ho =>
        Option.join_eq_some_iff.mp (hkeep o v (Option.join_eq_some_iff.mpr ho))⟩
    · rw [List.mem_singleton.mp hm] at hm' ⊢
      rw [hentry] at hm'
      cases hm'
      refine ⟨xs, ys, hxs.imp fun s v hv => hv.mono hkeep, hys, forall₂_iff_getElem?.mpr
        ⟨by rw [NodeEntry.length_outputSockets, hcount], fun {i o} hi => ?_⟩⟩
      have hlt : i < ys.length := by
        rw [hcount, ← NodeEntry.length_outputSockets]
        exact (List.getElem?_eq_some_iff.mp hi).1
      rw [NodeEntry.outputSockets_getElem? (hcount ▸ hlt)] at hi
      cases hi
      exact ⟨ys[i], List.getElem?_eq_getElem hlt, NodeEntry.getElem?_store_position hg hentry hcount h.size hlt⟩

theorem runNodes (h : g.Ran programs args done table) (hg : Wiring.Numbered g.graph) {order : List DataNode}
    (hnodup : (done ++ order).Nodup)
    (hlen : ∀ n ∈ order, ∀ entry, g.graph.nodes[n.index]? = some entry →
      (programs n).outputs.length = entry.outputCount)
    (hrun : order.foldlM (g.runNode programs args) table = .ok table') :
    g.Ran programs args (done ++ order) table' := by
  induction order generalizing done table with
  | nil =>
      cases hrun
      rwa [List.append_nil]
  | cons n order ih =>
      rw [List.foldlM_cons, bind_eq_ok_iff] at hrun
      obtain ⟨table₁, hfirst, hrest⟩ := hrun
      have hn : n ∉ done := fun hmem =>
        (List.nodup_append'.mp hnodup).2.2 hmem (by simp)
      rw [List.append_cons] at hnodup
      have h₁ := h.runNode hg hn (hlen n (by simp)) hfirst
      have hall := ih h₁ hnodup (fun m hm => hlen m (by simp [hm])) hrest
      rwa [← List.append_cons] at hall

end Ran

theorem ran_runNodes (hg : Wiring.Numbered g.graph) {order : List DataNode} (hnodup : order.Nodup)
    (hlen : ∀ n ∈ order, ∀ entry, g.graph.nodes[n.index]? = some entry →
      (programs n).outputs.length = entry.outputCount) {ys : List Value}
    (hrun : g.runNodes programs order args = .ok ys) :
    args.length = g.inputs.length ∧ ∃ table, g.Ran programs args order table ∧
      List.Forall₂ (g.HasValue args fun o => (table[o.index]?).join) g.outputs ys := by
  unfold runNodes at hrun
  split at hrun
  · simp at hrun
  · rename_i hargs
    simp only [bind_eq_ok_iff, mapM_eq_ok_iff, valueIn_eq_ok_iff] at hrun
    obtain ⟨table, htable, hys⟩ := hrun
    refine ⟨not_not.mp hargs, table, ?_, hys⟩
    exact (ran_start g programs args).runNodes hg (by simpa using hnodup) hlen htable

theorem Ran.computes {order : List DataNode} (h : g.Ran programs args order table)
    (hall : ∀ n, g.Needed n → n ∈ order) :
    g.Computes (fun n args ys => (programs n).execute args = .ok ys) args fun o => (table[o.index]?).join := by
  intro n entry hneeded hn
  obtain ⟨xs, ys, hxs, hexec, hys⟩ := h.node n (hall n hneeded) entry hn
  exact ⟨xs, ys, hxs, hexec, hys.imp fun o v ho => Option.join_eq_some_iff.mpr ho⟩

/-- The functions of the needed nodes are programs of their signature. -/
structure HasPrograms (g : FunctionGraph) (programs : DataNode → Program) : Prop where
  body : ∀ n entry, g.Needed n → g.graph.nodes[n.index]? = some entry →
    entry.function.compiled? = some (programs n).inlined
  inputs : ∀ n entry, g.Needed n → g.graph.nodes[n.index]? = some entry →
    (programs n).inputs.length = entry.inputCount
  outputs : ∀ n entry, g.Needed n → g.graph.nodes[n.index]? = some entry →
    (programs n).outputs.length = entry.outputCount
  valid : ∀ n, g.Needed n → (programs n).Valid

theorem HasPrograms.emittable (h : g.HasPrograms programs)
    (hk : ∀ n, g.Needed n → (programs n).KeepsInputs) :
    g.Emittable (fun n args ys => (programs n).execute args = .ok ys) fun n => (programs n).registerCount := by
  intro n entry hneeded hn
  refine ⟨_, h.body n entry hneeded hn, ?_⟩
  rw [← h.inputs n entry hneeded hn, ← h.outputs n entry hneeded hn]
  exact Program.emits_inlined (h.valid n hneeded) (hk n hneeded)

/-- Together, the programs of a graph make one that computes the same. -/
theorem exists_inlined_program {graph : DataGraph} {inputs outputs : List DataSocket}
    (hnew : FunctionGraph.new graph inputs outputs = .ok g) (hg : graph.Built) (hp : g.HasPrograms programs)
    (hk : ∀ n, g.Needed n → (programs n).KeepsInputs) {order : List DataNode} (ho : g.Lists order)
    (hroom : g.registerBudget (fun n => (programs n).registerCount) order < UInt32.size) {f : Function}
    (hf : f.compiled? = none) (hin : f.inputs.size = g.inputs.length)
    (hout : f.outputs.size = g.outputs.length) :
    ∃ f' emitter q, g.attachProgram f = .ok (true, f') ∧ f'.compiled? = some emitter ∧
      f'.program emitter = .ok q ∧ ∀ args ys, g.runNodes programs order args = .ok ys →
        q.execute args = .ok ys := by
  have hgraph : g.graph = graph := by
    rw [(new_eq_ok_iff.mp hnew).1]
  have hfrozen : g.graph.Frozen := hgraph ▸ hg.frozen
  obtain ⟨nodes, hnodes⟩ := exists_neededNodes hnew hfrozen
  have hperm : nodes.Perm order := (List.perm_ext_iff_of_nodup (lists_neededNodes hfrozen hnodes).nodup ho.nodup).mpr
    fun n => ((lists_neededNodes hfrozen hnodes).mem_iff n).trans (ho.mem_iff n).symm
  have hroom' : g.registerBudget (fun n => (programs n).registerCount) nodes < UInt32.size := by
    rwa [registerBudget, (hperm.map _).sum_eq]
  rcases program?_cases hfrozen (hp.emittable hk) hnodes with ⟨-, hsize⟩ | ⟨p, hprogram, hvalid,
    hinputs, houtputs, hcount, hexec⟩
  · exact absurd hroom' (Nat.not_lt.mpr hsize)
  have hattach := Function.attach_compiled hf p.inlined
  obtain ⟨q, hq, hqexec⟩ := Function.exists_program_inlined
    (f := { f with bodies := f.bodies ++ [.compiled p.inlined] }) hvalid (hinputs ▸ nodup_registersFrom 0 _)
    hcount (by rw [hinputs, length_registersFrom]; exact hin)
    (hout.trans houtputs.symm)
  refine ⟨_, p.inlined, q, ?_, Function.compiled?_attached hf p.inlined, hq, fun args ys hrun => ?_⟩
  · rw [attachProgram, hprogram]
    simp only [ok_bind]
    rw [Body.ofProgram, hattach]
    rfl
  · have hlen (n : DataNode) (hn : n ∈ order) (entry : NodeEntry)
        (he : g.graph.nodes[n.index]? = some entry) : (programs n).outputs.length = entry.outputCount :=
      hp.outputs n entry ((ho.mem_iff n).mp hn) he
    obtain ⟨hargs, table, hran, hys⟩ := ran_runNodes hfrozen.toNumbered ho.nodup hlen hrun
    exact hqexec args ys (hexec args _ ys hargs (hran.computes fun n => (ho.mem_iff n).mpr) hys)

/-! ## A shared register -/

/-- An input `x` and a node whose program computes something from it. -/
def sharedGraph (p : Program) : DataGraph where
  nodes := #[⟨⟨"x", #[], #[⟨"x", .float⟩], []⟩, none, 0, 0⟩,
    ⟨⟨"p", #[⟨"x", .float⟩], #[⟨"y", .float⟩], [.ofProgram p]⟩, none, 0, 1⟩]
  inputs := #[⟨⟨1⟩, 0, ⟨0⟩⟩]
  outputs := #[⟨⟨0⟩, 0, [⟨0⟩]⟩, ⟨⟨1⟩, 0, []⟩]

/-- The results are what the node computes, and `x` itself. -/
def shared (p : Program) : FunctionGraph := ⟨sharedGraph p, [.output ⟨0⟩], [.output ⟨1⟩, .output ⟨0⟩]⟩

def sharedFunction : Function := ⟨"f", #[⟨"x", .float⟩], #[⟨"y", .float⟩, ⟨"x", .float⟩], []⟩

theorem new_shared (p : Program) :
    FunctionGraph.new (sharedGraph p) [.output ⟨0⟩] [.output ⟨1⟩, .output ⟨0⟩] = .ok (shared p) := rfl

theorem built_sharedGraph (p : Program) : (sharedGraph p).Built := by
  have hinserted := (DataGraphBuilder.Reachable.empty.insert
    ⟨"x", #[], #[⟨"x", .float⟩], []⟩ none).insert
      ⟨"p", #[⟨"x", .float⟩], #[⟨"y", .float⟩], [.ofProgram p]⟩ none
  have hlinked : DataGraphBuilder.Reachable ⟨(sharedGraph p).nodes, #[⟨⟨1⟩, 0, some ⟨0⟩⟩],
      (sharedGraph p).outputs⟩ := hinserted.link ⟨0⟩ ⟨0⟩ (by with_unfolding_all rfl)
  have harrows : (sharedGraph p).nodes.toList.mapM (sharedGraph p).feeders = .ok [[], [0]] := rfl
  exact .of_reachable hlinked harrows (by decide +kernel)

theorem neededNodes_shared (p : Program) : (shared p).neededNodes = .ok [⟨1⟩] := by
  have ha : (shared p).graph.nodes.mapM
      (fun n => (shared p).sourceNodes (n.inputSockets.map .input)) = .ok #[[], []] := by
    rw [Array.mapM_eq_mapM_toList]
    rfl
  have hr : (shared p).sourceNodes (shared p).outputs = .ok [1] := rfl
  have hwalk : (walkFrom #[[], []] [1]).order = #[1] := by decide +kernel
  rw [neededNodes, ha, hr, ok_bind, ok_bind, hwalk]
  rfl

theorem lists_shared (p : Program) : (shared p).Lists [⟨1⟩] :=
  lists_neededNodes (built_sharedGraph p).frozen (neededNodes_shared p)

theorem hasPrograms_shared {p : Program} (hv : p.Valid) (hin : p.inputs.length = 1)
    (hout : p.outputs.length = 1) : (shared p).HasPrograms fun _ => p := by
  have hnode {n : DataNode} {entry : NodeEntry} (hn : (shared p).Needed n)
      (he : (shared p).graph.nodes[n.index]? = some entry) :
      (sharedGraph p).nodes[1]? = some entry := by
    rw [← (lists_shared p).mem_iff, List.mem_singleton] at hn
    subst hn
    exact he
  refine ⟨fun n entry hn he => ?_, fun n entry hn he => ?_, fun n entry hn he => ?_, fun _ _ => hv⟩
  · cases hnode hn he
    rfl
  · cases hnode hn he
    exact hin
  · cases hnode hn he
    exact hout

/-- The double of the input in a register of its own. -/
def double : Program := ⟨[⟨0⟩], [⟨1⟩], #[.binary .add ⟨1⟩ ⟨0⟩ ⟨0⟩], 2⟩

/-- The double of the input in the register of the input. -/
def doubleInPlace : Program := ⟨[⟨0⟩], [⟨0⟩], #[.binary .add ⟨0⟩ ⟨0⟩ ⟨0⟩], 1⟩

theorem keepsInputs_double : double.KeepsInputs := by
  simp [Program.KeepsInputs, double, Instruction.destinations]

/-- A graph with a node that keeps its input register has a program. -/
theorem exists_inlined_program_double : ∃ f' emitter q,
    (shared double).attachProgram sharedFunction = .ok (true, f') ∧ f'.compiled? = some emitter ∧
      f'.program emitter = .ok q ∧
        ∀ args ys, (shared double).runNodes (fun _ => double) [⟨1⟩] args = .ok ys → q.execute args = .ok ys :=
  exists_inlined_program (new_shared double) (built_sharedGraph double)
    (hasPrograms_shared ⟨by decide, by decide, by decide⟩ rfl rfl) (fun _ _ => keepsInputs_double) (lists_shared double)
    (by decide) rfl rfl rfl

theorem program?_doubleInPlace : (shared doubleInPlace).program? =
    .ok (some ⟨[⟨0⟩], [⟨0⟩, ⟨0⟩], #[.binary .add ⟨0⟩ ⟨0⟩ ⟨0⟩], 1⟩) := by
  rw [program?, emit, neededNodes_shared]
  rfl

/-- A program that writes its input register changes what the other readers of the register get. -/
theorem inlined_doubleInPlace : ∃ (f' : Function) (emitter : Emitter) (q : Program) (args ys ys' : List Value),
    (shared doubleInPlace).graph.Built ∧ (shared doubleInPlace).HasPrograms (fun _ => doubleInPlace) ∧
      (shared doubleInPlace).Lists [⟨1⟩] ∧
        (shared doubleInPlace).runNodes (fun _ => doubleInPlace) [⟨1⟩] args = .ok ys ∧
          (shared doubleInPlace).attachProgram sharedFunction = .ok (true, f') ∧
            f'.compiled? = some emitter ∧ f'.program emitter = .ok q ∧ q.execute args = .ok ys' ∧ ys ≠ ys' := by
  have hattach : (shared doubleInPlace).attachProgram sharedFunction = .ok (true, { sharedFunction with
      bodies := [.ofProgram ⟨[⟨0⟩], [⟨0⟩, ⟨0⟩], #[.binary .add ⟨0⟩ ⟨0⟩ ⟨0⟩], 1⟩] }) := by
    rw [attachProgram, program?_doubleInPlace]
    rfl
  refine ⟨_, _, ⟨[⟨0⟩], [⟨0⟩, ⟨0⟩], #[.binary .add ⟨0⟩ ⟨0⟩ ⟨0⟩], 1⟩, [.float .one],
    [.float (.number false 0x40000000), .float .one],
    [.float (.number false 0x40000000), .float (.number false 0x40000000)], built_sharedGraph doubleInPlace,
    hasPrograms_shared ⟨by decide, by decide, by decide⟩ rfl rfl, lists_shared doubleInPlace, ?_, hattach, rfl, rfl,
    ?_, by decide⟩
  · decide +kernel
  · decide +kernel

end FunctionGraph

end Nodeflow
