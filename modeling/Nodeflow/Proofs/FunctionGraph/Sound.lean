import Nodeflow.Proofs.FunctionGraph.Calls

/-!
# Sound evaluations

The state of an evaluation is sound if all it has computed is what the recursive evaluation computes,
and if each suspended call will come to the outputs that its node has, before a number of entries that
is the same for all calls is used up. A step keeps a sound state
sound, and fails only at a node that the recursive evaluation fails at.
-/

namespace Nodeflow

open Eval

variable {g : FunctionGraph} {acyclic : WellFounded g.graph.Feeds} {arguments : List (Option Value)}
  {entries : Nat}

/-- What has been computed is right, for all outputs of the finished nodes and no others. -/
structure Evaluation.Sound (g : FunctionGraph) (acyclic : WellFounded g.graph.Feeds)
    (arguments : List (Option Value)) (entries : Nat) (e : Evaluation) : Prop where
  arguments_eq : e.arguments = arguments.toArray
  finished_size : e.finished.size = g.graph.nodes.size
  suspended_size : e.suspended.size = g.graph.nodes.size
  computed : ∀ {o : OutputSocket} {origin : OutputEntry}, g.graph.outputs[o.index]? = some origin →
    e.isFinished origin.node = true →
      ∃ v, e.computed[o.index]? = some (some v) ∧ g.outputValue acyclic arguments o = .ok v
  missing : ∀ {o : OutputSocket} {origin : OutputEntry}, g.graph.outputs[o.index]? = some origin →
    e.isFinished origin.node = false → e.computed[o.index]? = some none
  foreign : ∀ {o : OutputSocket}, g.graph.outputs[o.index]? = none → e.computed[o.index]? = none
  calls : ∀ {n : DataNode} {call : SuspendedCall}, e.suspendedCall? n = some call →
    ∃ entry body state, g.graph.nodes[n.index]? = some entry ∧ entry.function.tupleCall? = none ∧
      entry.function.lazyTupleCall? = some body ∧ call.state = some state ∧
        (∀ i ∈ call.needed, call.tuples.input.isFilled i = .ok false) ∧
          Agree (g.nodeOutputs acyclic arguments n)
            (entry.complete body (g.inputValue acyclic arguments n) call) ∧
              Enough (entry.completeWithin body (g.inputValue acyclic arguments n) call) entries

namespace Evaluation

variable {e : Evaluation} {n : DataNode} {i : Nat}

@[simp] theorem isFinished_start (n : DataNode) : (start g arguments).isFinished n = false := by
  simp only [isFinished, start, Array.getElem?_replicate]
  split <;> rfl

@[simp] theorem suspendedCall?_start (n : DataNode) : (start g arguments).suspendedCall? n = none := by
  simp only [suspendedCall?, start, Array.getElem?_replicate]
  split <;> rfl

namespace Sound

theorem of_start (acyclic : WellFounded g.graph.Feeds) (arguments : List (Option Value)) (entries : Nat) :
    Sound g acyclic arguments entries (start g arguments) := by
  refine ⟨rfl, by simp [start], by simp [start], fun {o origin} ho hf => ?_, fun {o origin} ho _ => ?_,
    fun {o} ho => ?_, fun {n call} hc => ?_⟩
  · simp at hf
  · simp [start, (Array.getElem?_eq_some_iff.mp ho).1]
  · simpa [start] using ho
  · simp at hc

theorem isComputed_iff (he : e.Sound g acyclic arguments entries) {o : OutputSocket} :
    e.isComputed o = true ↔
      ∃ origin, g.graph.outputs[o.index]? = some origin ∧ e.isFinished origin.node = true := by
  unfold isComputed
  cases ho : g.graph.outputs[o.index]? with
  | none => simp [he.foreign ho]
  | some origin =>
      cases hf : e.isFinished origin.node with
      | false => simp [he.missing ho hf, hf]
      | true =>
          obtain ⟨v, hv, -⟩ := he.computed ho hf
          simp [hv, hf]

end Sound
end Evaluation

namespace FunctionGraph

theorem pendingNode?_eq (e : Evaluation) (n : DataNode) (i : Nat) :
    g.pendingNode? e n i = g.inputSource n i >>= fun
      | .argument _ => .ok none
      | .node o => if e.isComputed o then .ok none
          else (g.graph.output o).map fun origin => some origin.node := by
  rw [pendingNode?, inputSource, bind_assoc]
  rfl

theorem pendingNode?_eq_some {e : Evaluation} {n m : DataNode} {i : Nat}
    (h : g.pendingNode? e n i = .ok (some m)) : ∃ o origin, g.inputSource n i = .ok (.node o) ∧
      g.graph.outputs[o.index]? = some origin ∧ origin.node = m := by
  rw [pendingNode?_eq, bind_eq_ok_iff] at h
  obtain ⟨source, hs, h⟩ := h
  cases source with
  | argument k => cases h
  | node o =>
      dsimp only at h
      split at h
      · cases h
      · obtain ⟨origin, ho, hm⟩ := map_eq_ok_iff.mp h
        exact ⟨o, origin, hs, Wiring.output_eq_ok_iff.mp ho, Option.some.inj hm⟩

theorem provideInputs_cons (e : Evaluation) (n : DataNode) (i : Nat) (positions : List Nat)
    (t : Tuple) : g.provideInputs e n (i :: positions) t = t.isFilled i >>= fun filled =>
      if filled then g.provideInputs e n positions t
      else (g.graph.inputSocket n i >>= fun s => g.available e (.input s)) >>= fun v =>
        t.put i v >>= fun x => g.provideInputs e n positions x.2 := by
  rw [provideInputs, List.foldlM_cons, bind_assoc]
  congr 1
  funext filled
  cases filled with
  | true => rfl
  | false =>
      simp only [Bool.false_eq_true, if_false, bind_assoc, pure_bind]
      rfl

end FunctionGraph

namespace Evaluation.Sound

variable {e : Evaluation} {n : DataNode} {i : Nat}

theorem pendingNode?_eq_none_iff (he : e.Sound g acyclic arguments entries) :
    g.pendingNode? e n i = .ok none ↔ (∃ k, g.inputSource n i = .ok (.argument k)) ∨
      ∃ o origin, g.inputSource n i = .ok (.node o) ∧ g.graph.outputs[o.index]? = some origin ∧
        e.isFinished origin.node = true := by
  rw [FunctionGraph.pendingNode?_eq]
  cases hs : g.inputSource n i with
  | error fault => simp
  | ok source =>
      cases source with
      | argument k => simp
      | node o =>
          have hcomp := he.isComputed_iff (o := o)
          simp only [bind_eq_ok_iff, Except.ok.injEq, exists_eq_left', reduceCtorEq, exists_false,
            false_or, ValueSource.node.injEq, exists_and_left]
          rw [← hcomp]
          split <;> simp [*]

/-- A socket of a finished node, or of none, has the value that recursion gives it. -/
theorem available_agree (he : e.Sound g acyclic arguments entries) {s : DataSocket} {source : ValueSource}
    (hs : g.source s = .ok source)
    (hf : ∀ o, source = .node o → ∃ origin, g.graph.outputs[o.index]? = some origin ∧
      e.isFinished origin.node = true) :
    Agree (g.available e s) (g.sourceValue acyclic arguments source) := by
  unfold FunctionGraph.available
  rw [hs]
  cases source with
  | argument k =>
      change Agree _ (g.argumentValue arguments k)
      rw [FunctionGraph.argumentValue, ← he.arguments_eq]
      exact .refl _
  | node o =>
      obtain ⟨origin, ho, hfin⟩ := hf o rfl
      obtain ⟨v, hv, hval⟩ := he.computed ho hfin
      rw [ok_bind]
      dsimp only [FunctionGraph.sourceValue]
      rw [hv, hval]
      exact .refl _

theorem available_input_agree (he : e.Sound g acyclic arguments entries)
    (hp : g.pendingNode? e n i = .ok none) :
    Agree (g.graph.inputSocket n i >>= fun s => g.available e (.input s))
      (g.inputValue acyclic arguments n i) := by
  rw [FunctionGraph.inputValue, FunctionGraph.inputSource, bind_assoc]
  refine .bind (.refl _) fun s hs => ?_
  have hsource : g.inputSource n i = g.source (.input s) := by
    rw [FunctionGraph.inputSource, hs]
    rfl
  rw [he.pendingNode?_eq_none_iff, hsource] at hp
  rcases hp with ⟨k, hk⟩ | ⟨o, origin, ho, hg, hf⟩
  · rw [hk]
    exact he.available_agree hk (by simp)
  · rw [ho]
    exact he.available_agree ho fun o' h => by cases h; exact ⟨origin, hg, hf⟩

theorem provideInputs_agree (he : e.Sound g acyclic arguments entries) {positions : List Nat} {t : Tuple}
    (hp : ∀ i ∈ positions, g.pendingNode? e n i = .ok none)
    (ht : ∀ i ∈ positions, NodeEntry.Expected (g.inputValue acyclic arguments n) t i) :
    Agree (g.provideInputs e n positions t)
      (NodeEntry.preset (g.inputValue acyclic arguments n) positions t) := by
  induction positions generalizing t with
  | nil => exact .refl _
  | cons i positions ih =>
      have hrest {t' : Tuple} (ht' : ∀ j ∈ positions,
          NodeEntry.Expected (g.inputValue acyclic arguments n) t' j) :=
        ih (fun j hj => hp j (by simp [hj])) ht'
      rw [FunctionGraph.provideInputs_cons, NodeEntry.preset_cons]
      cases hfill : t.isFilled i with
      | error fault =>
          refine .faults (by simp) fun t' h => ?_
          simp only [bind_eq_ok_iff, Prod.exists] at h
          obtain ⟨v, -, old, t₁, hput, -⟩ := h
          obtain ⟨slot, hs, -⟩ := Tuple.put_eq_ok_iff.mp hput
          simp [Tuple.isFilled, Tuple.value?, elementAt, hs, Except.map] at hfill
      | ok filled =>
          obtain ⟨content, hc, hsome⟩ := Tuple.isFilled_eq_ok_iff.mp hfill
          obtain ⟨slot, hs, rfl⟩ := Tuple.value?_eq_ok_iff.mp hc
          cases filled with
          | true =>
              obtain ⟨v, hv⟩ := Option.isSome_iff_exists.mp hsome
              obtain ⟨hin, htype⟩ := ht i (by simp) slot v hs hv
              rw [hin]
              change Agree _ (t.put i v >>= _)
              rw [Tuple.put_of_stored hs hv htype]
              exact hrest fun j hj => ht j (by simp [hj])
          | false =>
              refine .bind (he.available_input_agree (hp i (by simp))) fun v hv => ?_
              refine .bind (.refl _) fun x hx => hrest fun j hj => ?_
              exact (ht j (by simp [hj])).put hv hx

end Evaluation.Sound

end Nodeflow
