import Nodeflow.Proofs.FunctionGraph.Interpreter
import Nodeflow.Proofs.FunctionGraph.Standard

/-!
# Calling the interpreter

If all results have values, a call of the interpreter gives just these.
-/

namespace Nodeflow

open Eval

namespace FunctionGraph

variable {g : FunctionGraph} {acyclic : WellFounded g.graph.Feeds} {arguments : List (Option Value)}

/-- What is in an element of the result tuple in the end: what was in it, or the value of its socket. -/
def Supplies (g : FunctionGraph) (acyclic : WellFounded g.graph.Feeds) (arguments : List (Option Value))
    (s : DataSocket) (slot : Slot) (v : Value) : Prop :=
  v.type = slot.parameter.type ∧
    (slot.content = some v ∨ slot.content = none ∧ g.socketValue acyclic arguments s = .ok v)

theorem addResult_next {s : DataSocket} {slot : Slot} {v : Value} (h : g.Supplies acyclic arguments s slot v)
    (pre rest : List Slot) : g.addResult acyclic arguments ⟨(pre ++ slot :: rest).toArray⟩ (s, pre.length) =
      .ok ⟨(pre ++ ⟨slot.parameter, some v⟩ :: rest).toArray⟩ := by
  obtain ⟨p, content⟩ := slot
  obtain ⟨htype, rfl | ⟨rfl, hv⟩⟩ := h
  · have hfilled : Tuple.isFilled ⟨(pre ++ ⟨p, some v⟩ :: rest).toArray⟩ pre.length = .ok true :=
      Tuple.isFilled_eq_ok_iff.mpr ⟨some v, Tuple.value?_eq_ok_iff.mpr ⟨⟨p, some v⟩, by simp, rfl⟩, rfl⟩
    rw [addResult, hfilled]
    rfl
  · rw [addResult, Tuple.isFilled_next, ok_bind, hv, ok_bind, Tuple.put_next htype]
    rfl

theorem foldlM_addResult {results : List (DataSocket × Slot)} {vs : List Value} (pre : List Slot)
    (h : List.Forall₂ (fun r v => g.Supplies acyclic arguments r.1 r.2 v) results vs) :
    ((results.map Prod.fst).zipIdx pre.length).foldlM (g.addResult acyclic arguments)
        ⟨(pre ++ results.map Prod.snd).toArray⟩ =
      .ok ⟨(pre ++ ((results.map Prod.snd).map Slot.parameter).zipWith (fun p v => Slot.mk p (some v)) vs).toArray⟩ := by
  induction h generalizing pre with
  | nil => rfl
  | @cons r v results vs hv _ ih =>
      have hrest := ih (pre ++ [⟨r.2.parameter, some v⟩])
      rw [List.map_cons, List.map_cons, List.zipIdx_cons, List.foldlM_cons, addResult_next hv, ok_bind]
      simpa using hrest

variable {f : Function} {output : Tuple} {vs : List Value}

theorem results_eq_filled (hlayout : output.layout = f.outputs) (hsize : g.outputs.length = f.outputs.size)
    (h : List.Forall₂ (fun r v => g.Supplies acyclic arguments r.1 r.2 v) (g.outputs.zip output.slots.toList) vs) :
    g.results acyclic arguments output = .ok (Tuple.filled f.outputs vs) := by
  have hslots : output.slots.toList.length = g.outputs.length := by
    rw [hsize, ← hlayout]
    simp [Tuple.layout]
  have hfold := foldlM_addResult [] h
  rw [List.map_fst_zip (Nat.le_of_eq hslots.symm), List.map_snd_zip (Nat.le_of_eq hslots)] at hfold
  rw [results, Tuple.filled, ← hlayout, Tuple.layout, Array.toList_map]
  exact hfold

/-- A call of the interpreter keeps the results that are there, and stores the values of the others. -/
theorem call_evaluate (hg : g.graph.Frozen) (hi : g.IgnoresContext) (hcounts : g.LeavesCounts) (input : Tuple)
    (hlayout : output.layout = f.outputs) (hsize : g.outputs.length = f.outputs.size)
    (h : List.Forall₂ (fun r v => g.Supplies hg.wellFounded input.contents r.1 r.2 v)
      (g.outputs.zip output.slots.toList) vs) (c : Context) :
    (runOn c (f.call g.evaluate ⟨input, output⟩)).1 = .ok ⟨input.clear, Tuple.filled f.outputs vs⟩ := by
  obtain ⟨outcome, hag, hrun⟩ :=
    exists_outcome hg hi ⟨input, output⟩ (c.push (.text f.name)) (hcounts.endsWithin hi)
  rw [results_eq_filled hlayout hsize h] at hag
  rw [Function.call, fst_runOn_bind Function.ignores_close, fst_runOn_within, evaluate,
    rounds, hrun _ _ (Nat.le_refl _), (hag _).mpr rfl]
  change (f.close ⟨input.clear, Tuple.filled f.outputs vs⟩).result = _
  rw [Function.close]
  simp only [Tuple.allFilled_filled, if_true, Tuple.clear_clear, result_pure]

theorem supplies_new {sockets : List DataSocket} {layout : Array Parameter}
    (hvs : List.Forall₂ (fun s v => g.socketValue acyclic arguments s = .ok v) sockets vs)
    (htyped : Typed vs layout) : List.Forall₂ (fun r v => g.Supplies acyclic arguments r.1 r.2 v)
      (sockets.zip (Tuple.new layout).slots.toList) vs := by
  rw [Tuple.new, Array.toList_map]
  rw [Typed] at htyped
  generalize layout.toList = ps at htyped
  induction hvs generalizing ps with
  | nil => exact .nil
  | cons hv _ ih =>
      rcases htyped with _ | ⟨hp, htyped⟩
      exact .cons ⟨hp, .inr ⟨rfl, hv⟩⟩ (ih _ htyped)

end FunctionGraph

end Nodeflow
