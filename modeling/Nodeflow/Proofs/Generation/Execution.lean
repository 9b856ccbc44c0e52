import Nodeflow.Runner
import Nodeflow.Proofs.DataGraph.Drawing
import Nodeflow.Proofs.Generation.Function
import Nodeflow.Proofs.Value.Reading

/-!
# Running trees

Whatever a tree, its settings and the inputs are, a run ends with a text or is refused for a reason,
and never with a fault. The exception is a tree with one node that is to be input node and output
node of the function at once.
-/

namespace Nodeflow

/-! ## Steps of a run -/

/-- A step of a run ends without a fault: it is refused, or gives a result of some kind. -/
def Settles {α : Type} (x : ExceptT RunError (Except Fault) α) (P : α → Prop) : Prop :=
  (∃ e, x.run = .ok (.error e)) ∨ ∃ a, x.run = .ok (.ok a) ∧ P a

namespace Settles

variable {α β : Type} {P : α → Prop}

theorem pure {a : α} (h : P a) : Settles (pure a) P := .inr ⟨a, rfl, h⟩

theorem throw {e : RunError} : Settles (throw e : ExceptT RunError (Except Fault) α) P := .inl ⟨e, rfl⟩

theorem lift {x : Except Fault α} {a : α} (hx : x = .ok a) (h : P a) :
    Settles (liftM x : ExceptT RunError (Except Fault) α) P := by
  subst hx
  exact .inr ⟨a, rfl, h⟩

theorem bind {x : ExceptT RunError (Except Fault) α} {f : α → ExceptT RunError (Except Fault) β}
    {Q : β → Prop} (hx : Settles x P) (hf : ∀ a, P a → Settles (f a) Q) :
    Settles (x >>= f) Q := by
  have hrun : (x >>= f).run = x.run >>= fun
      | .error e => .ok (.error e)
      | .ok a => (f a).run := by
    rw [ExceptT.run_bind]
    congr 1
    funext result
    cases result <;> rfl
  rcases hx with ⟨e, he⟩ | ⟨a, ha, hpost⟩
  · exact .inl ⟨e, by rw [hrun, he]; rfl⟩
  · rcases hf a hpost with ⟨e, he⟩ | ⟨b, hb, hpost'⟩
    · exact .inl ⟨e, by rw [hrun, ha]; exact he⟩
    · exact .inr ⟨b, by rw [hrun, ha]; exact hb, hpost'⟩

theorem mono {x : ExceptT RunError (Except Fault) α} {Q : α → Prop} (h : Settles x P)
    (hpost : ∀ a, P a → Q a) : Settles x Q :=
  h.imp_right fun ⟨a, ha, hpa⟩ => ⟨a, ha, hpost a hpa⟩

theorem exists_run {x : ExceptT RunError (Except Fault) α} (h : Settles x P) : ∃ r, x.run = .ok r := by
  rcases h with ⟨e, he⟩ | ⟨a, ha, -⟩
  · exact ⟨_, he⟩
  · exact ⟨_, ha⟩

end Settles

/-! ## Calls -/

namespace Tuple

theorem intoValues_filled {layout : Array Parameter} {vs : List Value} (h : vs.length = layout.size) :
    (filled layout vs).intoValues = .ok vs := intoValues_eq_ok_iff.mpr (contents_filled h)

end Tuple

namespace Package

variable {p : Package}

def readInput (input : Tuple) : (Parameter × String) × Nat → ExceptT RunError (Except Fault) Tuple
  | ((parameter, text), i) =>
    match parameter.type.parse text with
    | .error reason => throw (.input parameter.name reason)
    | .ok v => do
      let (_, input) ← liftM (input.put i v)
      return input

theorem readInputs_eq (inputs : List (Parameter × String)) (input : Tuple) :
    readInputs inputs input = inputs.zipIdx.foldlM readInput input := rfl

theorem settles_readInput (pre rest : List Slot) (q : Parameter) (text : String) :
    Settles (readInput ⟨(pre ++ ⟨q, none⟩ :: rest).toArray⟩ ((q, text), pre.length)) fun input =>
      ∃ v : Value, v.type = q.type ∧ input = ⟨(pre ++ ⟨q, some v⟩ :: rest).toArray⟩ := by
  rw [readInput]
  split
  · exact .throw
  · rename_i v hparse
    have htype := ValueType.type_of_parse hparse
    refine Settles.bind (.lift (Tuple.put_next htype) rfl) ?_
    rintro _ rfl
    exact .pure ⟨v, htype, rfl⟩

theorem settles_foldlM_readInput (pre : List Slot) {parameters : List Parameter} (texts : List String)
    (hlen : texts.length = parameters.length) :
    Settles (((parameters.zip texts).zipIdx pre.length).foldlM readInput
      ⟨(pre ++ parameters.map fun q => Slot.mk q none).toArray⟩) fun input => ∃ vs,
        List.Forall₂ (fun (v : Value) q => v.type = q.type) vs parameters ∧
          input = ⟨(pre ++ parameters.zipWith (fun q v => Slot.mk q (some v)) vs).toArray⟩ := by
  induction parameters generalizing pre texts with
  | nil => exact .pure ⟨[], .nil, rfl⟩
  | cons q parameters ih =>
      cases texts with
      | nil => cases hlen
      | cons text texts =>
          rw [List.zip_cons_cons, List.zipIdx_cons, List.foldlM_cons]
          refine (settles_readInput pre (parameters.map fun q => Slot.mk q none) q text).bind ?_
          rintro _ ⟨v, hv, rfl⟩
          have hrest := ih (pre ++ [⟨q, some v⟩]) texts (Nat.succ.inj hlen)
          simp only [List.length_append, List.length_singleton, List.append_assoc, List.singleton_append] at hrest
          refine hrest.mono ?_
          rintro _ ⟨vs, hvs, rfl⟩
          exact ⟨v :: vs, .cons hv hvs, rfl⟩

theorem settles_readInputs {layout : Array Parameter} {texts : List String} (hlen : texts.length = layout.size) :
    Settles (readInputs (layout.toList.zip texts) (Tuple.new layout)) fun input =>
      ∃ vs, Typed vs layout ∧ input = Tuple.filled layout vs := by
  have hnew : Tuple.new layout = ⟨([] ++ layout.toList.map fun q => Slot.mk q none).toArray⟩ := by
    rw [Tuple.new, List.nil_append, ← List.map_toArray, Array.toArray_toList]
  rw [readInputs_eq, hnew]
  exact settles_foldlM_readInput [] texts (by rwa [Array.length_toList])

theorem call_eq (p : Package) (inputs : List String) : p.call inputs = p.callOn inputs >>= fun action =>
    (liftM ((action.runOn {}).1 >>= fun tuples => tuples.output.intoValues) :
      ExceptT RunError (Except Fault) (List Value)) >>= fun values =>
        pure ((p.function.outputs.toList.map Parameter.name).zip values) := rfl

end Package

namespace Tree

open Snapshot

variable {t : Tree} {config : Config} {d : Draft} {lowered : LoweredTree} {sockets : InterfaceSockets}
  {g : FunctionGraph} {p : Package}

theorem Generates.exists_results (h : t.Generates config d lowered sockets g p) {args : List Value}
    (ha : Typed args p.function.inputs) : ∃ ys,
      List.Forall₂ (fun s v => g.socketValue h.frozen.wellFounded (args.map some) s = .ok v) g.outputs ys ∧
        Typed ys p.function.outputs := by
  obtain ⟨d?, p?, hmade⟩ := FunctionGraph.exists_made h.function
  obtain ⟨ys, hys, hsuits⟩ := FunctionGraph.exists_results h.frozen
    (fun s hs => h.contains s (List.mem_append_right _ hs)) h.standard (hmade.signature.accepts ha)
  exact ⟨ys, hys, hmade.signature.typed hsuits⟩

theorem Generates.call_eq (h : t.Generates config d lowered sockets g p) {args ys : List Value}
    (ha : Typed args p.function.inputs) (hys : List.Forall₂
      (fun s v => g.socketValue h.frozen.wellFounded (args.map some) s = .ok v) g.outputs ys)
    (htyped : Typed ys p.function.outputs) (c : Context) :
    (Eval.runOn c (p.function.call g.evaluate
      ⟨Tuple.filled p.function.inputs args, Tuple.new p.function.outputs⟩)).1 =
      .ok ⟨Tuple.new p.function.inputs, Tuple.filled p.function.outputs ys⟩ := by
  obtain ⟨d?, p?, hmade⟩ := FunctionGraph.exists_made h.function
  have hsize : g.outputs.length = p.function.outputs.size := by
    rw [hmade.signature.outputs.length_eq, Array.length_toList]
  rw [← Tuple.contents_filled ha.length_eq] at hys
  rw [FunctionGraph.call_evaluate h.frozen h.ignoresContext h.leavesCounts _ (Tuple.fits_new _).layout hsize
    (FunctionGraph.supplies_new hys htyped), Tuple.clear_filled ha.length_eq]

theorem Generates.settles_callOn (h : t.Generates config d lowered sockets g p) (inputs : List String) :
    Settles (p.callOn inputs) fun action => ∃ args, Typed args p.function.inputs ∧ action =
      p.function.call g.evaluate ⟨Tuple.filled p.function.inputs args, Tuple.new p.function.outputs⟩ := by
  obtain ⟨d?, p?, hmade⟩ := FunctionGraph.exists_made h.function
  unfold Package.callOn
  dsimp only
  split
  · exact Settles.bind (P := fun _ => False) .throw fun _ h => h.elim
  · rename_i hlen
    rw [hmade.tupleCall?]
    refine (Package.settles_readInputs (not_not.mp hlen)).bind ?_
    rintro _ ⟨args, hargs, rfl⟩
    exact .pure ⟨args, hargs, rfl⟩

theorem Generates.settles_call (h : t.Generates config d lowered sockets g p) (inputs : List String) :
    Settles (p.call inputs) fun _ => True := by
  rw [Package.call_eq]
  refine (h.settles_callOn inputs).bind ?_
  rintro _ ⟨args, hargs, rfl⟩
  obtain ⟨ys, hys, htyped⟩ := h.exists_results hargs
  have hvalues : ((Eval.runOn {} (p.function.call g.evaluate
      ⟨Tuple.filled p.function.inputs args, Tuple.new p.function.outputs⟩)).1 >>= fun tuples =>
        tuples.output.intoValues) = .ok ys := by
    rw [h.call_eq hargs hys htyped, ok_bind]
    exact Tuple.intoValues_filled htyped.length_eq
  exact Settles.bind (P := fun _ => True) (.lift hvalues trivial) fun _ _ => .pure trivial

theorem Generates.settles_render (h : t.Generates config d lowered sockets g p) (mode : Mode)
    (inputs : List String) : Settles (p.render mode inputs) fun _ => True := by
  cases mode with
  | call => exact (h.settles_call inputs).bind fun _ _ => .pure trivial
  | dot =>
      obtain ⟨text, htext⟩ := DataGraph.Frozen.exists_dot h.lowers.frozen
      rw [Package.render]
      rw [h.dataGraph?]
      exact .lift htext trivial
  | program =>
      obtain ⟨d?, p?, hmade⟩ := FunctionGraph.exists_made h.function
      rw [Package.render]
      by_cases hc : config.compiledBody = true
      · obtain ⟨nodes, hnodes⟩ := FunctionGraph.exists_neededNodes h.graph h.frozen
        obtain ⟨emitter, q, hemitter, hq, -⟩ := hmade.exists_program hc h.frozen h.standard hnodes
        rw [hemitter]
        exact Settles.bind (P := fun _ => True) (.lift hq trivial) fun _ _ => .pure trivial
      · have hnone := hmade.program
        rw [if_neg hc] at hnone
        rw [hmade.compiled?, hnone]
        exact .throw

/-- One node type is both sides of the interface, and a node of it has outputs to declare. -/
def Clash (t : Tree) (config : Config) : Prop :=
  config.inputNode = config.outputNode ∧ config.inputNode ∉ Inserters.builtinNames ∧
    ∃ n ∈ t.nodes.values, n.idname = config.inputNode ∧ 2 ≤ n.outputs.length

theorem clash_ofTree (h : (ofTree t).Clash config) : t.Clash config := by
  obtain ⟨heq, hb, node, hn, hid, hlen⟩ := h
  have hc := copies_ofTree t
  obtain ⟨j, hj⟩ := List.mem_iff_getElem?.mp hn
  rw [Array.getElem?_toList] at hj
  have hlt : j < t.nodes.values.length := hc.size ▸ (Array.getElem?_eq_some_iff.mp hj).1
  obtain ⟨first, hcopy, -⟩ := hc.node (List.getElem?_eq_getElem hlt)
  rw [hj] at hcopy
  cases hcopy
  exact ⟨heq, hb, _, List.getElem_mem hlt, hid, by simpa [copy] using hlen⟩

/--
A tree is turned into a function or has none, and every run ends with a text or is refused, unless
one node is to be both sides of the interface.
-/
theorem exists_run_of_not_clash (hclash : ¬t.Clash config) (hsize : t.registerBound < UInt32.size) :
    (∃ p?, t.generate config (.builtin config) = .ok p?) ∧
      ∀ mode inputs, ∃ r, (t.execute config mode inputs).run = .ok r := by
  obtain ⟨p?, hp⟩ := exists_generate (fun h => hclash (clash_ofTree h)) hsize
  refine ⟨⟨p?, hp⟩, fun mode inputs => Settles.exists_run (P := fun _ => True) ?_⟩
  refine Settles.bind (P := fun p?' => p? = p?') (.lift hp rfl) ?_
  rintro _ rfl
  cases p? with
  | none => exact .throw
  | some p =>
      obtain ⟨d, lowered, sockets, g, h⟩ := exists_generates hp
      exact h.settles_render mode inputs

theorem exists_run_sumOfSum : ¬sumOfSum.Clash {} ∧ sumOfSum.registerBound < UInt32.size ∧
    (∃ p?, sumOfSum.generate {} (.builtin {}) = .ok p?) ∧
      ∀ mode inputs, ∃ r, (sumOfSum.execute {} mode inputs).run = .ok r := by
  have hclash : ¬sumOfSum.Clash {} := fun h => absurd h.1 (by decide)
  have hsize : sumOfSum.registerBound < UInt32.size := by decide +kernel
  exact ⟨hclash, hsize, exists_run_of_not_clash hclash hsize⟩

/-- A tree with a parameter, whose input node is taken for the output node too. -/
def declaring : Tree :=
  ({ name := "declaring" } : Tree).addNode
    { id := Supply.nodeId 0
      idname := Idname.functionInput
      name := "Function Input"
      inputs := []
      outputs := [⟨.output "a" .float, Supply.portId 0⟩, ⟨.placeholder .output, Supply.portId 1⟩] }

/-- Settings that name one node type for both sides of the interface. -/
def oneForBoth : Config := { outputNode := Idname.functionInput }

theorem run_declaring : declaring.generate oneForBoth (.builtin oneForBoth) = .error (.unmapped 0) ∧
    (declaring.execute oneForBoth .call []).run = .error (.unmapped 0) := by
  have hgenerate : declaring.generate oneForBoth (.builtin oneForBoth) = .error (.unmapped 0) := by
    with_unfolding_all rfl
  exact ⟨hgenerate, by rw [execute, hgenerate]; rfl⟩

end Tree

end Nodeflow
