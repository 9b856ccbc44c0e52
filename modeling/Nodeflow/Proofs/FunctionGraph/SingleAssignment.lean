import Nodeflow.Proofs.FunctionGraph.Agreement
import Nodeflow.Proofs.Program.SingleAssignment

/-!
# Single assignment in the program of a graph

Each node of a graph of operations adds one instruction, which writes the next registers and reads
registers of arguments and of nodes before it. So the program of the graph is in single-assignment
form, and is its own program when it is inlined.
-/

namespace Nodeflow

theorem run_lift_eq_ok_iff {α : Type} {x : Except Fault α} {a : α} {b b' : ProgramBuilder} :
    ((liftM x : Emit α)).run b = .ok (a, b') ↔ x = .ok a ∧ b' = b := by
  cases x with
  | error e => exact ⟨by rintro ⟨⟩, fun h => by cases h.1⟩
  | ok c =>
      change Except.ok (c, b) = Except.ok (a, b') ↔ _
      simp [eq_comm]

theorem run_bind_eq_ok_iff {α β : Type} {x : Emit α} {f : α → Emit β} {c : β} {b b' : ProgramBuilder} :
    (x >>= f).run b = .ok (c, b') ↔ ∃ a b₁, x.run b = .ok (a, b₁) ∧ (f a).run b₁ = .ok (c, b') := by
  rw [StateT.run_bind, bind_eq_ok_iff, Prod.exists]

theorem run_pure_eq_ok_iff {α : Type} {a c : α} {b b' : ProgramBuilder} :
    (pure a : Emit α).run b = .ok (c, b') ↔ a = c ∧ b = b' := by
  change Except.ok (a, b) = Except.ok (c, b') ↔ _
  simp

theorem forall₂_of_run_mapM {α : Type} {f : α → Emit Register} {P : α → Register → Prop}
    (hf : ∀ x r b b', (f x).run b = .ok (r, b') → P x r ∧ b' = b) {xs : List α} {rs : List Register}
    {b b' : ProgramBuilder} (h : (xs.mapM f).run b = .ok (rs, b')) : List.Forall₂ P xs rs ∧ b' = b := by
  induction xs generalizing rs b with
  | nil =>
      obtain ⟨rfl, rfl⟩ := run_pure_eq_ok_iff.mp h
      exact ⟨.nil, rfl⟩
  | cons x xs ih =>
      simp only [List.mapM_cons, run_bind_eq_ok_iff, run_pure_eq_ok_iff] at h
      obtain ⟨r, b₁, hr, rs', b₂, hrs, rfl, rfl⟩ := h
      obtain ⟨hx, rfl⟩ := hf x r b b₁ hr
      obtain ⟨hxs, rfl⟩ := ih hrs
      exact ⟨.cons hx hxs, rfl⟩

theorem Function.run_of_emit {f : Function} {emitter : Emitter} {given outs : List Register} {b b' : ProgramBuilder}
    (h : (f.emit emitter given).run b = .ok (outs, b')) :
    given.length = f.inputs.size ∧ (emitter given).run b = .ok (outs, b') := by
  unfold emit at h
  split at h
  · cases h
  · rename_i hlen
    refine ⟨not_not.mp hlen, ?_⟩
    obtain ⟨outs', b₁, hrun, hrest⟩ := run_bind_eq_ok_iff.mp h
    split at hrest
    · cases hrest
    · obtain ⟨rfl, rfl⟩ := run_pure_eq_ok_iff.mp hrest
      exact hrun

namespace FunctionGraph

variable {g : FunctionGraph} {emitted emitted' : Emitted} {arguments : List Register} {b b' : ProgramBuilder}

theorem hasRegister_of_run {s : DataSocket} {r : Register}
    (h : (g.registerOf arguments emitted s).run b = .ok (r, b')) :
    g.HasRegister arguments emitted s r ∧ b' = b := by
  obtain ⟨source, b₁, hlift, hrest⟩ := run_bind_eq_ok_iff.mp h
  obtain ⟨hsource, rfl⟩ := run_lift_eq_ok_iff.mp hlift
  cases source with
  | argument i =>
      dsimp only [Emit.pick] at hrest
      split at hrest
      · rename_i r' hr
        obtain ⟨rfl, rfl⟩ := run_pure_eq_ok_iff.mp hrest
        exact ⟨⟨_, hsource, hr⟩, rfl⟩
      · cases hrest
  | node o =>
      dsimp only at hrest
      split at hrest
      · rename_i r' hr
        obtain ⟨rfl, rfl⟩ := run_pure_eq_ok_iff.mp hrest
        exact ⟨⟨_, hsource, Option.join_eq_some_iff.mpr hr⟩, rfl⟩
      · cases hrest

/-- The arguments have the first registers, and instructions have written all others in order. -/
structure LaidOut (g : FunctionGraph) (b : ProgramBuilder) (emitted : Emitted) : Prop where
  code : Consecutive g.inputs.length b.instructions.toList b.registerCount
  emitted_lt : ∀ (o : Nat) (r : Register), emitted[o]? = some (some r) → r.number < b.registerCount

namespace LaidOut

theorem register_lt (h : g.LaidOut b emitted) {s : DataSocket} {r : Register}
    (hr : g.HasRegister (registersFrom 0 g.inputs.length) emitted s r) : r.number < b.registerCount := by
  obtain ⟨source, -, hr⟩ := hr
  cases source with
  | argument i =>
      obtain ⟨count, hcount, -⟩ := h.code.exists_destinations
      have hlt := (mem_registersFrom_iff.mp (List.mem_of_getElem? hr)).2
      omega
  | node o => exact h.emitted_lt o.index r (Option.join_eq_some_iff.mp hr)

theorem emitNode (h : g.LaidOut b emitted) {n : DataNode} (hop : ∀ entry, g.graph.nodes[n.index]? = some entry →
      ∃ op : Operation, entry.function = op.function)
    (hrun : (g.emitNode (registersFrom 0 g.inputs.length) emitted n).run b = .ok (some emitted', b')) :
    g.LaidOut b' emitted' := by
  unfold FunctionGraph.emitNode at hrun
  obtain ⟨entry, b₁, hlift, hrest⟩ := run_bind_eq_ok_iff.mp hrun
  obtain ⟨hentry, rfl⟩ := run_lift_eq_ok_iff.mp hlift
  obtain ⟨op, hf⟩ := hop entry (Wiring.node_eq_ok_iff.mp hentry)
  obtain ⟨emitter, hemitter, hone⟩ := op.exists_emitter
  simp only [hf, hemitter, run_bind_eq_ok_iff, run_pure_eq_ok_iff] at hrest
  obtain ⟨given, b₂, hinputs, outs, b₃, hemit, hsome, rfl⟩ := hrest
  obtain ⟨hgiven, rfl⟩ := forall₂_of_run_mapM (fun s r b b' => hasRegister_of_run) hinputs
  obtain ⟨hlen, hemit⟩ := Function.run_of_emit hemit
  rcases hone b₂ given hlen with ⟨herror, -⟩ | ⟨outs', b', hok, -, i, hi, rfl, rfl⟩
  · rw [hemit] at herror
    cases herror
  rw [hemit] at hok
  obtain ⟨rfl, rfl⟩ := Prod.mk.inj (Except.ok.inj hok)
  have hlt : ∀ r ∈ given, r.number < b₂.registerCount :=
    ((List.forall₂_and_left _ _).mp (hgiven.flip.imp fun r s hs => ⟨h.register_lt hs, hs⟩)).1
  cases hsome
  refine ⟨?_, fun o r hr => ?_⟩
  · rw [Array.toList_push]
    exact h.code.concat hi.destinations fun r hr => hlt r (hi.operands r hr)
  · have hcount : i.destinations.length = entry.outputCount := by
      rw [hi.destinations, length_registersFrom, NodeEntry.outputCount, hf]
    rcases Covers.register_cases hcount hr with ⟨k, -, hk⟩ | hr
    · have hmem := List.mem_of_getElem? hk
      rw [hi.destinations] at hmem
      exact (mem_registersFrom_iff.mp hmem).2
    · exact Nat.lt_of_lt_of_le (h.emitted_lt o r hr) (Nat.le_add_right _ _)

theorem emitNodes (h : g.LaidOut b emitted) {nodes : List DataNode}
    (hop : ∀ n ∈ nodes, ∀ entry, g.graph.nodes[n.index]? = some entry → ∃ op : Operation, entry.function = op.function)
    (hrun : (g.emitNodes (registersFrom 0 g.inputs.length) nodes emitted).run b = .ok (some emitted', b')) :
    g.LaidOut b' emitted' := by
  induction nodes generalizing b emitted with
  | nil =>
      obtain ⟨hsome, rfl⟩ := run_pure_eq_ok_iff.mp hrun
      cases hsome
      exact h
  | cons n nodes ih =>
      unfold FunctionGraph.emitNodes at hrun
      obtain ⟨result, b₁, hfirst, hrun⟩ := run_bind_eq_ok_iff.mp hrun
      cases result with
      | none => cases hrun
      | some emitted₁ =>
          exact ih (h.emitNode (hop n (by simp)) hfirst) (fun m hm => hop m (by simp [hm])) hrun

end LaidOut

theorem inOrder_program {p : Program} (hop : ∀ n entry, g.Needed n → g.graph.nodes[n.index]? = some entry →
      ∃ op : Operation, entry.function = op.function) (hg : g.graph.Frozen)
    (h : g.program? = .ok (some p)) : p.InOrder ∧ p.inputs.length = g.inputs.length := by
  obtain ⟨⟨registers, b⟩, hrun, hp⟩ := bind_eq_ok_iff.mp h
  unfold emit at hrun
  obtain ⟨given, b₁, hnew, hrest⟩ := run_bind_eq_ok_iff.mp hrun
  rcases emitsOr_newRegisters {} g.inputs.length with ⟨herror, -⟩ | ⟨given', b', hnew', -, rfl, rfl⟩
  · rw [hnew] at herror
    cases herror
  rw [hnew] at hnew'
  obtain ⟨rfl, rfl⟩ := Prod.mk.inj (Except.ok.inj hnew')
  obtain ⟨nodes, b₂, hlift, hnodes'⟩ := run_bind_eq_ok_iff.mp hrest
  obtain ⟨hnodes, rfl⟩ := run_lift_eq_ok_iff.mp hlift
  obtain ⟨result, b₃, hcode, hresults⟩ := run_bind_eq_ok_iff.mp hnodes'
  have hstart : g.LaidOut ⟨#[], 0 + g.inputs.length⟩ (Array.replicate g.graph.outputs.size none) := by
    refine ⟨?_, fun o r hr => ?_⟩
    · rw [Nat.zero_add]
      exact .nil _
    · rw [Array.getElem?_replicate] at hr
      split at hr <;> simp at hr
  cases result with
  | none =>
      obtain ⟨rfl, rfl⟩ := run_pure_eq_ok_iff.mp hresults
      cases hp
  | some emitted =>
      have hlaid := hstart.emitNodes
        (fun n hn entry => hop n entry (((lists_neededNodes hg hnodes).mem_iff n).mp hn)) hcode
      simp only [run_bind_eq_ok_iff, run_pure_eq_ok_iff] at hresults
      obtain ⟨results, b₄, hmap, hsome, hb⟩ := hresults
      obtain ⟨hregisters, rfl⟩ := forall₂_of_run_mapM (fun s r b b' => hasRegister_of_run) hmap
      cases hb
      subst hsome
      cases hp
      have hlen : (registersFrom 0 g.inputs.length).length = g.inputs.length := length_registersFrom ..
      refine ⟨⟨congrArg (registersFrom 0) hlen.symm, ?_, ?_⟩, hlen⟩
      · change Consecutive (registersFrom 0 g.inputs.length).length _ _
        rw [hlen]
        exact hlaid.code
      · exact ((List.forall₂_and_left _ _).mp (hregisters.flip.imp fun r s hs => ⟨hlaid.register_lt hs, hs⟩)).1

/--
The program of a graph of operations is in single-assignment form after it has been inlined, and
reads no register that is not there or has not been written.
-/
theorem attached_program_is_single_assignment {graph : DataGraph} {inputs outputs : List DataSocket}
    (hnew : FunctionGraph.new graph inputs outputs = .ok g) (hg : graph.Built) {op : DataNode → Operation}
    (hop : ∀ n entry, g.Needed n → g.graph.nodes[n.index]? = some entry → entry.function = (op n).function)
    {f : Function} (hf : f.compiled? = none) (hin : f.inputs.size = g.inputs.length)
    (hout : f.outputs.size = g.outputs.length) :
    (g.attachProgram f = .error .counterOverflow ∧ ∃ order, g.Lists order ∧
        UInt32.size ≤ g.registerBudget (fun n => (op n).function.outputs.size) order) ∨
      ∃ f' emitter q, g.attachProgram f = .ok (true, f') ∧ f'.compiled? = some emitter ∧
        f'.program emitter = .ok q ∧ q.inputs.length = g.inputs.length ∧ q.SingleAssignment ∧
        ∀ args e, q.execute args = .error e →
          (∃ given expected, e = .argumentCount given expected) ∨ ∃ r v content, e = .wrongContent r v content := by
  have hgraph : g.graph = graph := by
    rw [(new_eq_ok_iff.mp hnew).1]
  have hfrozen : g.graph.Frozen := hgraph ▸ hg.frozen
  obtain ⟨nodes, hnodes⟩ := exists_neededNodes hnew hfrozen
  rcases program?_cases hfrozen (emittable_of_operations hop) hnodes with ⟨hprogram, hroom⟩ | ⟨p, hprogram, -, -,
    houtputs, hcount, -⟩
  · refine .inl ⟨?_, nodes, lists_neededNodes hfrozen hnodes, hroom⟩
    rw [attachProgram, hprogram]
    rfl
  · obtain ⟨horder, hinputs⟩ := inOrder_program (fun n entry hn hentry => ⟨op n, hop n entry hn hentry⟩)
      hfrozen hprogram
    obtain ⟨f', hattach, hbody, hown⟩ := Function.exists_attached_program horder.valid hf (hin.trans hinputs.symm)
      (hout.trans houtputs.symm)
    rw [horder.renumbered_eq, if_pos hcount] at hown
    refine .inr ⟨f', p.inlined, p, ?_, hbody, hown, hinputs, horder.singleAssignment, fun args e =>
      horder.singleAssignment.fault_cases⟩
    rw [attachProgram, hprogram, ok_bind]
    dsimp only
    rw [hattach]
    rfl

/-! ## A vector that is taken apart -/

/-- Two arguments, a vector of the first one, and the components of the vector. -/
def partsGraph : DataGraph where
  nodes := #[⟨Builtin.functionInput [⟨"x", .float⟩, ⟨"y", .float⟩], none, 0, 0⟩,
    ⟨Builtin.combineVector, none, 0, 2⟩, ⟨Builtin.separateVector, none, 3, 3⟩]
  inputs := #[⟨⟨1⟩, 0, ⟨0⟩⟩, ⟨⟨1⟩, 1, ⟨0⟩⟩, ⟨⟨1⟩, 2, ⟨0⟩⟩, ⟨⟨2⟩, 0, ⟨2⟩⟩]
  outputs := #[⟨⟨0⟩, 0, [⟨0⟩, ⟨1⟩, ⟨2⟩]⟩, ⟨⟨0⟩, 1, []⟩, ⟨⟨1⟩, 0, [⟨3⟩]⟩, ⟨⟨2⟩, 0, []⟩, ⟨⟨2⟩, 1, []⟩, ⟨⟨2⟩, 2, []⟩]

/-- The results are the last component and the first argument; the other argument is not used. -/
def parts : FunctionGraph := ⟨partsGraph, [.output ⟨0⟩, .output ⟨1⟩], [.output ⟨5⟩, .output ⟨0⟩]⟩

theorem built_partsGraph : partsGraph.Built := by
  have hinserted := ((DataGraphBuilder.Reachable.empty.insert
    (Builtin.functionInput [⟨"x", .float⟩, ⟨"y", .float⟩]) none).insert Builtin.combineVector none).insert
      Builtin.separateVector none
  have hx := hinserted.link ⟨0⟩ ⟨0⟩ (by with_unfolding_all rfl)
  have hy := hx.link ⟨0⟩ ⟨1⟩ (by with_unfolding_all rfl)
  have hz := hy.link ⟨0⟩ ⟨2⟩ (by with_unfolding_all rfl)
  have hlinked : DataGraphBuilder.Reachable ⟨partsGraph.nodes,
      #[⟨⟨1⟩, 0, some ⟨0⟩⟩, ⟨⟨1⟩, 1, some ⟨0⟩⟩, ⟨⟨1⟩, 2, some ⟨0⟩⟩, ⟨⟨2⟩, 0, some ⟨2⟩⟩], partsGraph.outputs⟩ :=
    hz.link ⟨2⟩ ⟨3⟩ (by with_unfolding_all rfl)
  have harrows : partsGraph.nodes.toList.mapM partsGraph.feeders = .ok [[], [0, 0, 0], [1]] := rfl
  exact .of_reachable hlinked harrows (by decide +kernel)

def partsOperation (n : DataNode) : Operation := if n.index = 1 then .combineVector else .separateVector

theorem function_parts (n : DataNode) (entry : NodeEntry) (hn : parts.Needed n)
    (hentry : parts.graph.nodes[n.index]? = some entry) : entry.function = (partsOperation n).function := by
  obtain ⟨s, hs⟩ := hn.exists_takesFrom
  obtain ⟨o, origin, ho, rfl, hnone⟩ := hs.exists_output
  match o with
  | ⟨0⟩ | ⟨1⟩ => cases hnone
  | ⟨2⟩ | ⟨3⟩ | ⟨4⟩ | ⟨5⟩ =>
      cases ho
      cases hentry
      rfl
  | ⟨k + 6⟩ => cases ho

theorem neededNodes_parts : parts.neededNodes = .ok [⟨1⟩, ⟨2⟩] := by
  have ha : parts.graph.nodes.mapM (fun n => parts.sourceNodes (n.inputSockets.map .input)) =
      .ok #[[], [], [1]] := by
    rw [Array.mapM_eq_mapM_toList]
    rfl
  have hr : parts.sourceNodes parts.outputs = .ok [2] := rfl
  have hwalk : (walkFrom #[[], [], [1]] [2]).order = #[1, 2] := by decide +kernel
  rw [neededNodes, ha, hr, ok_bind, ok_bind, hwalk]
  rfl

theorem program?_parts : parts.program? = .ok (some ⟨[⟨0⟩, ⟨1⟩], [⟨5⟩, ⟨0⟩],
    #[.combineVector ⟨2⟩ ⟨0⟩ ⟨0⟩ ⟨0⟩, .separateVector ⟨3⟩ ⟨4⟩ ⟨5⟩ ⟨2⟩], 6⟩) := by
  rw [program?, emit, neededNodes_parts]
  rfl

def partsFunction : Function :=
  ⟨"f", #[⟨"x", .float⟩, ⟨"y", .float⟩], #[⟨"z", .float⟩, ⟨"x", .float⟩], []⟩

theorem attached_program_is_single_assignment_parts : ∃ f' emitter q,
    parts.attachProgram partsFunction = .ok (true, f') ∧ f'.compiled? = some emitter ∧
      f'.program emitter = .ok q ∧ q.inputs.length = parts.inputs.length ∧ q.SingleAssignment ∧
        ∀ args e, q.execute args = .error e →
          (∃ given expected, e = .argumentCount given expected) ∨ ∃ r v content, e = .wrongContent r v content := by
  have hnew : FunctionGraph.new partsGraph [.output ⟨0⟩, .output ⟨1⟩] [.output ⟨5⟩, .output ⟨0⟩] = .ok parts := rfl
  have hcases := attached_program_is_single_assignment hnew built_partsGraph function_parts
    (f := partsFunction) rfl rfl rfl
  refine hcases.resolve_left fun hroom => ?_
  rw [attachProgram, program?_parts] at hroom
  cases hroom.1

end FunctionGraph

end Nodeflow
