import Nodeflow.FunctionGraph.Compiled
import Nodeflow.Proofs.FunctionGraph.Needed
import Nodeflow.Proofs.Program.Emission
import Mathlib.Algebra.BigOperators.Group.List.Basic
import Mathlib.Algebra.GroupWithZero.Nat

/-!
# The program of a function graph

The needed nodes are emitted one after another, each after the nodes it takes values from. A node
leaves all registers alone that were there before, so the values computed so far stay where they
are.
-/

namespace Nodeflow

open Renaming

/-- The value of a source, from the arguments and from what is known of the outputs. -/
def ValueSource.value? (args : List Value) (known : OutputSocket → Option Value) : ValueSource → Option Value
  | .argument i => args[i]?
  | .node o => known o

/-- The register of a source. -/
def ValueSource.register? (arguments : List Register) (emitted : Emitted) : ValueSource → Option Register
  | .argument i => arguments[i]?
  | .node o => (emitted[o.index]?).join

namespace FunctionGraph

variable {g : FunctionGraph} {R : DataNode → List Value → List Value → Prop}
  {cost : DataNode → Nat} {nodes : List DataNode} {arguments : List Register} {emitted : Emitted} {b b' : ProgramBuilder}

def HasValue (g : FunctionGraph) (args : List Value) (known : OutputSocket → Option Value)
    (s : DataSocket) (v : Value) : Prop :=
  ∃ source, g.source s = .ok source ∧ source.value? args known = some v

def HasRegister (g : FunctionGraph) (arguments : List Register) (emitted : Emitted)
    (s : DataSocket) (r : Register) : Prop :=
  ∃ source, g.source s = .ok source ∧ source.register? arguments emitted = some r

/-- What is known of the outputs is what the needed nodes compute. -/
def Computes (g : FunctionGraph) (R : DataNode → List Value → List Value → Prop)
    (args : List Value) (known : OutputSocket → Option Value) : Prop :=
  ∀ n entry, g.Needed n → g.graph.nodes[n.index]? = some entry → ∃ xs ys,
    List.Forall₂ (fun s v => g.HasValue args known (.input s) v) entry.inputSockets xs ∧
      R n xs ys ∧ List.Forall₂ (fun o v => known o = some v) entry.outputSockets ys

/-- Every needed node can be emitted. -/
def Emittable (g : FunctionGraph) (R : DataNode → List Value → List Value → Prop)
    (cost : DataNode → Nat) : Prop :=
  ∀ n entry, g.Needed n → g.graph.nodes[n.index]? = some entry →
    ∃ emitter, entry.function.compiled? = some emitter ∧
      Emits emitter entry.inputCount entry.outputCount (cost n) (R n)

theorem run_registerOf {s : DataSocket} {r : Register} (h : g.HasRegister arguments emitted s r)
    (b : ProgramBuilder) : (g.registerOf arguments emitted s).run b = .ok (r, b) := by
  obtain ⟨source, hs, hr⟩ := h
  have hlift : ((g.source s : Except Fault ValueSource) : Emit ValueSource) = pure source := by
    rw [hs]
    rfl
  rw [registerOf, hlift, pure_bind]
  cases source with
  | argument i =>
      dsimp only [ValueSource.register?] at hr
      dsimp only
      unfold Emit.pick
      rw [hr]
      rfl
  | node o =>
      dsimp only
      rw [show emitted[o.index]? = some (some r) from Option.join_eq_some_iff.mp hr]
      rfl

theorem run_mapM_of_forall₂ {α : Type} {f : α → Emit Register} {xs : List α} {rs : List Register}
    (h : List.Forall₂ (fun x r => (f x).run b = .ok (r, b)) xs rs) :
    (xs.mapM f).run b = .ok (rs, b) := by
  induction h with
  | nil => rfl
  | cons hx _ ih =>
      rw [List.mapM_cons, StateT.run_bind, hx, ok_bind, StateT.run_bind, ih]
      rfl

theorem argument_lt {s : DataSocket} {i : Nat} (h : g.argument? s = some i) : i < g.inputs.length := by
  obtain ⟨hlt, -⟩ := List.idxOf?_eq_some_iff.mp h
  exact hlt

theorem argument_lt_of_source {s : DataSocket} {i : Nat} (h : g.source s = .ok (.argument i)) :
    i < g.inputs.length := by
  unfold source at h
  split at h
  · rename_i j hj
    cases h
    exact argument_lt hj
  · split at h
    · cases h
    · obtain ⟨e, -, h⟩ := bind_eq_ok_iff.mp h
      dsimp only at h
      split at h
      · rename_i j hj
        cases h
        exact argument_lt hj
      · cases h

/-- The nodes that have been emitted, and what the instructions so far compute. -/
structure Covers (g : FunctionGraph) (R : DataNode → List Value → List Value → Prop)
    (arguments : List Register) (done : List DataNode) (b : ProgramBuilder) (emitted : Emitted) : Prop where
  size : emitted.size = g.graph.outputs.size
  arguments_lt : ∀ r ∈ arguments, r.number < b.registerCount
  emitted_lt : ∀ (o : Nat) (r : Register), emitted[o]? = some (some r) → r.number < b.registerCount
  there : ∀ n ∈ done, ∀ entry, g.graph.nodes[n.index]? = some entry →
    ∀ o ∈ entry.outputSockets, ∃ r, emitted[o.index]? = some (some r)
  valid : ∀ i ∈ b.instructions.toList, ∀ r ∈ i.registers, r.number < b.registerCount
  runs : ∀ (regs : Registers) (args : List Value) (known : OutputSocket → Option Value),
    b.registerCount ≤ regs.size → regs.Hold arguments args → g.Computes R args known →
      ∃ after, Instruction.runAll b.instructions.toList regs = .ok after ∧ after.size = regs.size ∧
        after.Hold arguments args ∧ ∀ (o : Nat) (r : Register), emitted[o]? = some (some r) →
          ∃ v, known ⟨o⟩ = some v ∧ after.read r = .ok v

theorem HasRegister.read {s : DataSocket} {r : Register} {v : Value} {regs : Registers}
    {args : List Value} {known : OutputSocket → Option Value} (hr : g.HasRegister arguments emitted s r)
    (hv : g.HasValue args known s v) (hhold : regs.Hold arguments args)
    (hknown : ∀ (o : Nat) (r : Register), emitted[o]? = some (some r) →
      ∃ v, known ⟨o⟩ = some v ∧ regs.read r = .ok v) : regs.read r = .ok v := by
  obtain ⟨source, hs, hr⟩ := hr
  obtain ⟨source', hs', hv⟩ := hv
  rw [hs] at hs'
  cases hs'
  cases source with
  | argument i =>
      obtain ⟨v', hv', hread⟩ := (forall₂_iff_getElem?.mp hhold).2 hr
      rw [show args[i]? = some v from hv] at hv'
      cases hv'
      exact hread
  | node o =>
      obtain ⟨v', hv', hread⟩ := hknown o.index r (Option.join_eq_some_iff.mp hr)
      rw [show known ⟨o.index⟩ = some v from hv] at hv'
      cases hv'
      exact hread

namespace Covers

variable {done : List DataNode}

theorem register_lt (h : g.Covers R arguments done b emitted) {s : DataSocket} {r : Register}
    (hr : g.HasRegister arguments emitted s r) : r.number < b.registerCount := by
  obtain ⟨source, -, hr⟩ := hr
  cases source with
  | argument i => exact h.arguments_lt r (List.mem_of_getElem? hr)
  | node o => exact h.emitted_lt o.index r (Option.join_eq_some_iff.mp hr)

theorem exists_register (h : g.Covers R arguments done b emitted) (hg : Wiring.Numbered g.graph)
    (hlen : arguments.length = g.inputs.length) {s : DataSocket} {n? : Option DataNode}
    (hs : g.sourceNode? s = .ok n?) (hdone : ∀ m, g.TakesFrom s m → m ∈ done) :
    ∃ r, g.HasRegister arguments emitted s r := by
  obtain ⟨source, hsource, hn?⟩ := bind_eq_ok_iff.mp ((g.sourceNode?_eq _).symm.trans hs)
  cases source with
  | argument i =>
      have hi : i < arguments.length := hlen ▸ argument_lt_of_source hsource
      exact ⟨arguments[i], .argument i, hsource, List.getElem?_eq_getElem hi⟩
  | node o =>
      obtain ⟨origin, horigin, -⟩ := map_eq_ok_iff.mp hn?
      rw [Wiring.output_eq_ok_iff] at horigin
      obtain ⟨entry, hn, hk, hplace⟩ := hg.output_place horigin
      obtain ⟨r, hr⟩ := h.there origin.node (hdone _ ⟨o, origin, hsource, horigin, rfl⟩) entry hn o (by
        rw [NodeEntry.outputSockets, List.mem_map]
        exact ⟨o.index, List.mem_range'_1.mpr (by omega), rfl⟩)
      exact ⟨r, .node o, hsource, Option.join_eq_some_iff.mpr hr⟩

theorem exists_input_registers (h : g.Covers R arguments done b emitted) (hg : g.graph.Frozen)
    (hlen : arguments.length = g.inputs.length) {n : DataNode} {entry : NodeEntry}
    (hn : g.graph.nodes[n.index]? = some entry)
    (hsources : ∀ s ∈ entry.inputSockets, ∀ m, g.TakesFrom (.input s) m → m ∈ done) :
    ∃ given, List.Forall₂ (fun s r => g.HasRegister arguments emitted (.input s) r)
      entry.inputSockets given := by
  refine exists_forall₂ fun s hs => ?_
  obtain ⟨n?, hn?⟩ := exists_sourceNode?_input hg hn hs
  exact h.exists_register hg.toNumbered hlen hn? (hsources s hs)

/-- An output has the register of its node's outputs, or the one it had before. -/
theorem register_cases {entry : NodeEntry} {outs : List Register} (hlen : outs.length = entry.outputCount)
    {o : Nat} {r : Register} (hr : (entry.store outs emitted)[o]? = some (some r)) :
    (∃ k : Nat, entry.outputSockets[k]? = some (OutputSocket.mk o) ∧ outs[k]? = some r) ∨ emitted[o]? = some (some r) := by
  rw [NodeEntry.getElem?_store hlen] at hr
  split at hr
  · rename_i ho
    obtain ⟨x, -, hx⟩ := Option.map_eq_some_iff.mp hr
    refine .inl ⟨o - entry.firstOutput, ?_, hx⟩
    rw [NodeEntry.outputSockets_getElem? (by omega), Nat.add_sub_cancel' ho.1]
  · exact .inr hr

theorem exists_register_store (h : g.Covers R arguments done b emitted) (hg : Wiring.Numbered g.graph)
    {n : DataNode} {entry : NodeEntry} (hn : g.graph.nodes[n.index]? = some entry) {outs : List Register}
    (hlen : outs.length = entry.outputCount) {m : DataNode} (hm : m ∈ done ++ [n]) {entry' : NodeEntry}
    (hm' : g.graph.nodes[m.index]? = some entry') {o : OutputSocket} (ho : o ∈ entry'.outputSockets) :
    ∃ r, (entry.store outs emitted)[o.index]? = some (some r) := by
  by_cases hin : entry.firstOutput ≤ o.index ∧ o.index < entry.firstOutput + entry.outputCount
  · have hlt : o.index - entry.firstOutput < outs.length := by omega
    have hat := NodeEntry.getElem?_store_position hg hn hlen h.size hlt
    rw [Nat.add_sub_cancel' hin.1] at hat
    exact ⟨_, hat⟩
  · rw [NodeEntry.getElem?_store hlen, if_neg hin]
    rcases List.mem_append.mp hm with hm | hm
    · exact h.there m hm entry' hm' o ho
    · rw [List.mem_singleton.mp hm, hn] at hm'
      cases hm'
      simp only [NodeEntry.outputSockets, List.mem_map, List.mem_range'_1] at ho
      obtain ⟨i, hi, rfl⟩ := ho
      exact absurd hi hin

/-- Code that keeps the registers so far, and computes a node's outputs, leaves what is known in all of them. -/
theorem read_store (h : g.Covers R arguments done b emitted) {entry : NodeEntry} {outs : List Register}
    (hlen : outs.length = entry.outputCount) {before after : Registers} {ys : List Value}
    {known : OutputSocket → Option Value}
    (hread : ∀ (o : Nat) (r : Register), emitted[o]? = some (some r) →
      ∃ v, known ⟨o⟩ = some v ∧ before.read r = .ok v)
    (hframe : ∀ i < b.registerCount, after[i]? = before[i]?)
    (hys : List.Forall₂ (fun o v => known o = some v) entry.outputSockets ys) (hout : after.Hold outs ys)
    {o : Nat} {r : Register} (hr : (entry.store outs emitted)[o]? = some (some r)) :
    ∃ v, known ⟨o⟩ = some v ∧ after.read r = .ok v := by
  rcases register_cases hlen hr with ⟨k, hk, hk'⟩ | hr
  · obtain ⟨v, hv, hknownv⟩ := (forall₂_iff_getElem?.mp hys).2 hk
    obtain ⟨v', hv', hreadv⟩ := (forall₂_iff_getElem?.mp hout).2 hk'
    rw [hv] at hv'
    cases hv'
    exact ⟨v, hknownv, hreadv⟩
  · obtain ⟨v, hv, hreadv⟩ := hread o r hr
    refine ⟨v, hv, ?_⟩
    rw [Registers.read_eq_ok_iff] at hreadv ⊢
    rw [hframe r.number (h.emitted_lt o r hr), hreadv]

theorem store (h : g.Covers R arguments done b emitted) (hg : Wiring.Numbered g.graph) {n : DataNode}
    {entry : NodeEntry} (hneeded : g.Needed n) (hn : g.graph.nodes[n.index]? = some entry)
    {given outs : List Register}
    (hgiven : List.Forall₂ (fun s r => g.HasRegister arguments emitted (.input s) r) entry.inputSockets given)
    (hlen : outs.length = entry.outputCount) (hem : Emission b b' given outs (R n)) :
    g.Covers R arguments (done ++ [n]) b' (entry.store outs emitted) := by
  obtain ⟨is, hcode, hvalid, hruns⟩ := hem.code
  refine ⟨?_, ?_, ?_, ?_, ?_, ?_⟩
  · rw [NodeEntry.size_store, h.size]
  · intro r hr
    exact Nat.lt_of_lt_of_le (h.arguments_lt r hr) hem.count_le
  · intro o r hr
    rcases register_cases hlen hr with ⟨k, -, hk⟩ | hr
    · exact hem.outs_lt r (List.mem_of_getElem? hk)
    · exact Nat.lt_of_lt_of_le (h.emitted_lt o r hr) hem.count_le
  · exact fun m hm entry' hm' o ho => h.exists_register_store hg hn hlen hm hm' ho
  · intro i hi r hr
    rw [hcode] at hi
    rcases List.mem_append.mp hi with hi | hi
    · exact Nat.lt_of_lt_of_le (h.valid i hi r hr) hem.count_le
    · exact hvalid i hi r hr
  · intro regs args known hsize hhold hknown
    obtain ⟨after, hafter, hsize', hhold', hread⟩ := h.runs regs args known
      (Nat.le_trans hem.count_le hsize) hhold hknown
    obtain ⟨xs, ys, hxs, happly, hys⟩ := hknown n entry hneeded hn
    have hin : after.Hold given xs := forall₂_join hgiven hxs fun s r v hr hv => hr.read hv hhold' hread
    obtain ⟨final, hfinal, hsize'', hframe, hout⟩ := hruns after xs ys (hsize' ▸ hsize) hin happly
    refine ⟨final, ?_, hsize''.trans hsize', ?_, fun o r hr => h.read_store hlen hread hframe hys hout hr⟩
    · rw [hcode, Instruction.runAll_append, hafter]
      exact hfinal
    · exact hhold'.congr fun r hr => hframe r.number (h.arguments_lt r hr)

theorem emitNode (h : g.Covers R arguments done b emitted) (hg : g.graph.Frozen)
    (hlen : arguments.length = g.inputs.length) (hem : g.Emittable R cost) {n : DataNode}
    (hneeded : g.Needed n)
    (hsources : ∀ entry s m, g.graph.nodes[n.index]? = some entry → s ∈ entry.inputSockets →
      g.TakesFrom (.input s) m → m ∈ done) :
    EmitsOr b (cost n) ((g.emitNode arguments emitted n).run b) fun result b' =>
      ∃ emitted', result = some emitted' ∧ g.Covers R arguments (done ++ [n]) b' emitted' := by
  obtain ⟨entry, hn⟩ := hneeded.exists_entry hg.toNumbered
  obtain ⟨emitter, hemitter, hemits⟩ := hem n entry hneeded hn
  obtain ⟨given, hgiven⟩ := h.exists_input_registers hg hlen hn fun s hs m => hsources entry s m hn hs
  have hinputs : (entry.inputSockets.mapM fun s => g.registerOf arguments emitted (.input s)).run b =
      .ok (given, b) := run_mapM_of_forall₂ (hgiven.imp fun s r hr => run_registerOf hr b)
  have hrun : (g.emitNode arguments emitted n).run b =
      ((entry.function.emit emitter given) >>= fun outs =>
        pure (some (entry.store outs emitted))).run b := by
    have hlift : ((g.graph.node n : Except Fault NodeEntry) : Emit NodeEntry) = pure entry := by
      rw [Wiring.node_eq_ok_iff.mpr hn]
      rfl
    rw [FunctionGraph.emitNode, hlift, pure_bind, hemitter]
    dsimp only
    rw [StateT.run_bind, hinputs, ok_bind]
    rfl
  rw [hrun]
  have hlt : ∀ r ∈ given, r.number < b.registerCount :=
    ((List.forall₂_and_left _ _).mp (hgiven.flip.imp fun r s hs => ⟨h.register_lt hs, hs⟩)).1
  have hlen' : given.length = entry.inputCount := by
    rw [← hgiven.length_eq, NodeEntry.length_inputSockets]
  refine ((Function.emits_emit hemits b given hlen' hlt).bind fun outs b' hle hout =>
    .pure ?_).mono (Nat.le_refl _) fun _ _ _ h => h
  exact ⟨_, rfl, h.store hg.toNumbered hneeded hn hgiven hout.1 hout.2⟩

theorem emitNodes (h : g.Covers R arguments done b emitted) (hg : g.graph.Frozen)
    (hlen : arguments.length = g.inputs.length) (hem : g.Emittable R cost)
    (hneeded : ∀ n ∈ nodes, g.Needed n)
    (hsources : ∀ before n after, nodes = before ++ n :: after → ∀ entry s m,
      g.graph.nodes[n.index]? = some entry → s ∈ entry.inputSockets → g.TakesFrom (.input s) m →
        m ∈ done ++ before) :
    EmitsOr b (nodes.map cost).sum ((g.emitNodes arguments nodes emitted).run b) fun result b' =>
      ∃ emitted', result = some emitted' ∧ g.Covers R arguments (done ++ nodes) b' emitted' := by
  -- for any nodes already emitted, as each node joins them before the rest is emitted
  induction nodes generalizing done b emitted with
  | nil => exact .pure ⟨emitted, rfl, by rwa [List.append_nil]⟩
  | cons n nodes ih =>
      have hfirst := h.emitNode hg hlen hem (hneeded n (by simp)) fun entry s m hn hs hm => by
        simpa using hsources [] n nodes rfl entry s m hn hs hm
      rw [FunctionGraph.emitNodes, List.map_cons, List.sum_cons]
      refine (hfirst.bind fun result b' _ hresult => ?_).mono (Nat.le_refl _) fun _ _ _ h => h
      obtain ⟨emitted', rfl, h'⟩ := hresult
      have hrest := ih h' (fun m hm => hneeded m (by simp [hm])) fun before m after hsplit => by
        have := hsources (n :: before) m after (by rw [hsplit, List.cons_append])
        simpa using this
      simpa using hrest

theorem start (hlt : ∀ r ∈ arguments, r.number < b.registerCount) (hb : b.instructions = #[]) :
    g.Covers R arguments [] b (Array.replicate g.graph.outputs.size none) := by
  have hnone (o : Nat) (r : Register) :
      (Array.replicate g.graph.outputs.size (none : Option Register))[o]? ≠ some (some r) := by
    rw [Array.getElem?_replicate]
    split <;> simp
  refine ⟨by simp, hlt, fun o r h => absurd h (hnone o r), by simp, by simp [hb], ?_⟩
  intro regs args known _ hhold _
  exact ⟨regs, by rw [hb]; rfl, rfl, hhold, fun o r h => absurd h (hnone o r)⟩

end Covers

/-- The budget of registers for some nodes and the arguments. -/
def registerBudget (g : FunctionGraph) (cost : DataNode → Nat) (nodes : List DataNode) : Nat :=
  g.inputs.length + (nodes.map cost).sum

theorem exists_result_registers (h : g.Covers R arguments nodes b emitted) (hg : g.graph.Frozen)
    (hlen : arguments.length = g.inputs.length) (hnodes : g.neededNodes = .ok nodes) :
    ∃ results, List.Forall₂ (g.HasRegister arguments emitted) g.outputs results := by
  have hlists := lists_neededNodes hg hnodes
  simp only [neededNodes, sourceNodes, bind_eq_ok_iff, pure_eq_ok_iff, mapM_eq_ok_iff] at hnodes
  obtain ⟨-, -, -, ⟨origins, horigins, -⟩, -⟩ := hnodes
  refine exists_forall₂ fun s hs => ?_
  obtain ⟨i, hi⟩ := List.mem_iff_getElem?.mp hs
  obtain ⟨n?, -, hn?⟩ := (forall₂_iff_getElem?.mp horigins).2 hi
  exact h.exists_register hg.toNumbered hlen hn? fun m hm => (hlists.mem_iff m).mpr (.result hs hm)

theorem emitsOr_emit (hg : g.graph.Frozen) (hem : g.Emittable R cost)
    (hnodes : g.neededNodes = .ok nodes) :
    EmitsOr {} (g.registerBudget cost nodes) (g.emit.run {}) fun result b =>
      ∃ emitted results, result = some (registersFrom 0 g.inputs.length, results) ∧
        g.Covers R (registersFrom 0 g.inputs.length) nodes b emitted ∧
          List.Forall₂ (g.HasRegister (registersFrom 0 g.inputs.length) emitted) g.outputs results := by
  have hlists := lists_neededNodes hg hnodes
  have hlen : (registersFrom 0 g.inputs.length).length = g.inputs.length := by simp
  have hlift : ((g.neededNodes : Except Fault (List DataNode)) : Emit (List DataNode)) = pure nodes := by
    rw [hnodes]
    rfl
  rw [emit, hlift]
  simp only [pure_bind]
  refine ((emitsOr_newRegisters {} g.inputs.length).bind fun given b₁ _ hgiven => ?_).mono
    (Nat.le_refl _) fun _ _ _ h => h
  obtain ⟨rfl, rfl⟩ := hgiven
  have hstart : g.Covers R (registersFrom 0 g.inputs.length) [] ⟨#[], 0 + g.inputs.length⟩
      (Array.replicate g.graph.outputs.size none) :=
    .start (fun r hr => (mem_registersFrom_iff.mp hr).2) rfl
  have hall := hstart.emitNodes hg hlen hem (fun n hn => (hlists.mem_iff n).mp hn)
    fun before n after hsplit entry s m hn hs hm => by
      simpa using hlists.ordered before n after hsplit entry s m hn hs hm
  refine (hall.bind fun result b hle hresult => ?_).mono
    (Nat.le_refl ((nodes.map cost).sum + 0)) fun _ _ _ h => h
  obtain ⟨emitted, rfl, hcovers⟩ := hresult
  rw [List.nil_append] at hcovers
  obtain ⟨results, hresults⟩ := exists_result_registers hcovers hg hlen hnodes
  dsimp only
  rw [StateT.run_bind, run_mapM_of_forall₂ (hresults.imp fun s r hr => run_registerOf hr b), ok_bind]
  exact .pure ⟨emitted, results, rfl, hcovers, hresults⟩

/-- A graph whose needed nodes can be emitted has a program that computes its results. -/
theorem program?_cases (hg : g.graph.Frozen) (hem : g.Emittable R cost)
    (hnodes : g.neededNodes = .ok nodes) :
    (g.program? = .error .counterOverflow ∧ UInt32.size ≤ g.registerBudget cost nodes) ∨
      ∃ p, g.program? = .ok (some p) ∧ p.Valid ∧ p.inputs = registersFrom 0 g.inputs.length ∧
        p.outputs.length = g.outputs.length ∧ p.registerCount < UInt32.size ∧
        ∀ args known ys, args.length = g.inputs.length → g.Computes R args known →
          List.Forall₂ (g.HasValue args known) g.outputs ys → p.execute args = .ok ys := by
  rcases emitsOr_emit hg hem hnodes with ⟨hrun, hsize⟩ | ⟨result, b, hrun, hb, hresult⟩
  · refine .inl ⟨?_, by simpa using hsize⟩
    rw [program?, hrun]
    rfl
  obtain ⟨emitted, results, rfl, hcovers, hresults⟩ := hresult
  refine .inr ⟨b.finish (registersFrom 0 g.inputs.length) results, ?_, ⟨?_, ?_, ?_⟩, rfl,
    hresults.length_eq.symm, hb.lt_size (by decide), ?_⟩
  · rw [program?, hrun]
    rfl
  · exact hcovers.arguments_lt
  · exact ((List.forall₂_and_left _ _).mp
      (hresults.flip.imp fun r s hs => ⟨hcovers.register_lt hs, hs⟩)).1
  · intro i hi
    exact hcovers.valid i (Array.mem_toList_iff.mpr hi)
  · intro args known ys hargs hknown hys
    obtain ⟨loaded, hload, hsize, hhold, -⟩ := Registers.exists_writeAll
      (Array.replicate b.registerCount none) args (nodup_registersFrom 0 g.inputs.length)
      (by simpa using hargs.symm) fun r hr => by
        simpa using hcovers.arguments_lt r hr
    obtain ⟨after, hafter, -, hhold', hread⟩ :=
      hcovers.runs loaded args known (by simp [hsize]) hhold hknown
    refine Program.execute_eq_ok_iff.mpr ⟨by simpa [ProgramBuilder.finish] using hargs, loaded, after, hload, hafter, ?_⟩
    exact forall₂_join hresults hys fun s r v hr hv => hr.read hv hhold' hread

end FunctionGraph

end Nodeflow
