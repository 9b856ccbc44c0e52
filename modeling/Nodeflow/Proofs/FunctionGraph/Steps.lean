import Nodeflow.Proofs.FunctionGraph.Sound

/-!
# Steps of an evaluation

A step finishes a node or brings its call one entry further. It keeps a sound evaluation sound, and
leaves other nodes alone.
-/

namespace Nodeflow

open Eval

variable {g : FunctionGraph} {acyclic : WellFounded g.graph.Feeds} {arguments : List (Option Value)}
  {entries : Nat}

namespace Evaluation

variable {e : Evaluation} {n m : DataNode}

theorem index_ne (hm : m ≠ n) : n.index ≠ m.index := by
  intro h
  cases n
  cases m
  exact hm (by rw [DataNode.mk.injEq]; exact h.symm)

theorem isFinished_finish (hn : n.index < e.finished.size) (outputs : List (OutputSocket × Value)) :
    (e.finish n outputs).isFinished m = (decide (m = n) || e.isFinished m) := by
  simp only [isFinished, finish, Array.getElem?_setIfInBounds]
  by_cases hm : m = n
  · subst hm
    simp [hn]
  · simp [index_ne hm, hm]

theorem suspendedCall?_finish_of_ne (hm : m ≠ n) (outputs : List (OutputSocket × Value)) :
    (e.finish n outputs).suspendedCall? m = e.suspendedCall? m := by
  simp [suspendedCall?, finish, index_ne hm]

theorem suspendedCall?_finish_self (outputs : List (OutputSocket × Value)) :
    (e.finish n outputs).suspendedCall? n = none := by
  simp only [suspendedCall?, finish, Array.getElem?_setIfInBounds, if_true]
  by_cases hn : n.index < e.suspended.size <;> simp [hn]

@[simp] theorem isFinished_suspend (call : SuspendedCall) :
    (e.suspend n call).isFinished m = e.isFinished m := rfl

theorem suspendedCall?_suspend_of_ne (hm : m ≠ n) (call : SuspendedCall) :
    (e.suspend n call).suspendedCall? m = e.suspendedCall? m := by
  simp [suspendedCall?, suspend, index_ne hm]

theorem suspendedCall?_suspend_self (hn : n.index < e.suspended.size) (call : SuspendedCall) :
    (e.suspend n call).suspendedCall? n = some call := by
  simp [suspendedCall?, suspend, hn]

theorem getElem?_computed_finish {entry : NodeEntry} {vs : List Value} (hlen : vs.length = entry.outputCount)
    (j : Nat) : (e.finish n (entry.outputSockets.zip vs)).computed[j]? =
      if entry.firstOutput ≤ j ∧ j < entry.firstOutput + entry.outputCount then
        e.computed[j]?.map fun _ => vs[j - entry.firstOutput]?
      else e.computed[j]? :=
  NodeEntry.getElem?_store hlen e.computed j

namespace Sound

variable {entry : NodeEntry}

theorem computed_finish (he : e.Sound g acyclic arguments entries) (hg : Wiring.Numbered g.graph)
    (hn : g.graph.nodes[n.index]? = some entry) (hf : e.isFinished n = false) {vs : List Value}
    (hvs : g.nodeOutputs acyclic arguments n = .ok vs) (hlen : vs.length = entry.outputCount)
    {o : OutputSocket} {origin : OutputEntry} (ho : g.graph.outputs[o.index]? = some origin)
    (hnode : origin.node = n) :
    ∃ v, (e.finish n (entry.outputSockets.zip vs)).computed[o.index]? = some (some v) ∧
      g.outputValue acyclic arguments o = .ok v := by
  have hin := (hg.output_iff hn ho).mpr hnode
  have hpos : origin.position = o.index - entry.firstOutput := by
    have := hg.output_index ho (hnode ▸ hn)
    omega
  obtain ⟨v, hv⟩ : ∃ v, vs[o.index - entry.firstOutput]? = some v := ⟨_, List.getElem?_eq_getElem (by omega)⟩
  refine ⟨v, ?_, ?_⟩
  · rw [getElem?_computed_finish hlen, if_pos hin, he.missing ho (hnode ▸ hf), hv]
    rfl
  · simp only [FunctionGraph.outputValue, bind_eq_ok_iff, Wiring.output_eq_ok_iff, elementAt_eq_ok_iff,
      List.getElem?_toArray]
    exact ⟨origin, ho, vs, hnode ▸ hvs, hpos ▸ hv⟩

theorem finish (he : e.Sound g acyclic arguments entries) (hg : Wiring.Numbered g.graph)
    (hn : g.graph.nodes[n.index]? = some entry) (hf : e.isFinished n = false) {vs : List Value}
    (hvs : g.nodeOutputs acyclic arguments n = .ok vs) (hlen : vs.length = entry.outputCount) :
    (e.finish n (entry.outputSockets.zip vs)).Sound g acyclic arguments entries := by
  have hlt : n.index < e.finished.size := he.finished_size ▸ (Array.getElem?_eq_some_iff.mp hn).1
  refine ⟨he.arguments_eq, by simpa [Evaluation.finish] using he.finished_size,
    by simpa [Evaluation.finish] using he.suspended_size, fun {o origin} ho hfin => ?_,
    fun {o origin} ho hfin => ?_, fun {o} ho => ?_, fun {m call} hc => ?_⟩
  · by_cases hm : origin.node = n
    · exact he.computed_finish hg hn hf hvs hlen ho hm
    · rw [isFinished_finish hlt, decide_eq_false hm, Bool.false_or] at hfin
      rw [getElem?_computed_finish hlen, if_neg (mt (hg.output_iff hn ho).mp hm)]
      exact he.computed ho hfin
  · rw [isFinished_finish hlt, Bool.or_eq_false_iff, decide_eq_false_iff_not] at hfin
    rw [getElem?_computed_finish hlen, if_neg (mt (hg.output_iff hn ho).mp hfin.1)]
    exact he.missing ho hfin.2
  · rw [getElem?_computed_finish hlen, he.foreign ho]
    split <;> rfl
  · by_cases hm : m = n
    · subst hm
      simp [suspendedCall?_finish_self] at hc
    · rw [suspendedCall?_finish_of_ne hm] at hc
      exact he.calls hc

theorem suspend (he : e.Sound g acyclic arguments entries) (hn : g.graph.nodes[n.index]? = some entry)
    {body : LazyBody} {call : SuspendedCall} {state : LazyState}
    (ht : entry.function.tupleCall? = none) (hb : entry.function.lazyTupleCall? = some body)
    (hs : call.state = some state)
    (hempty : ∀ i ∈ call.needed, call.tuples.input.isFilled i = .ok false)
    (hv : Agree (g.nodeOutputs acyclic arguments n)
      (entry.complete body (g.inputValue acyclic arguments n) call))
    (hover : Enough (entry.completeWithin body (g.inputValue acyclic arguments n) call) entries) :
    (e.suspend n call).Sound g acyclic arguments entries := by
  refine ⟨he.arguments_eq, he.finished_size, by simpa [Evaluation.suspend] using he.suspended_size,
    he.computed, he.missing, he.foreign, fun {m call'} hc => ?_⟩
  by_cases hm : m = n
  · subst hm
    rw [suspendedCall?_suspend_self (he.suspended_size ▸ (Array.getElem?_eq_some_iff.mp hn).1)] at hc
    cases hc
    exact ⟨entry, body, state, hn, ht, hb, hs, hempty, hv, hover⟩
  · rw [suspendedCall?_suspend_of_ne hm] at hc
    exact he.calls hc

end Sound

/-- The call of a lazy node that is not finished. -/
def callOf (e : Evaluation) (n : DataNode) (entry : NodeEntry) (body : LazyBody) : SuspendedCall :=
  (e.suspendedCall? n).getD (entry.opening body)

end Evaluation

/-- A node that an evaluation carries out by its lazy body. -/
def FunctionGraph.lazyNode? (g : FunctionGraph) (n : DataNode) : Option (NodeEntry × LazyBody) := do
  let entry ← g.graph.nodes[n.index]?
  if entry.function.tupleCall?.isSome then none
  else (entry.function.lazyTupleCall?).map fun body => (entry, body)

theorem FunctionGraph.lazyNode?_eq_some_iff {n : DataNode} {entry : NodeEntry} {body : LazyBody} :
    g.lazyNode? n = some (entry, body) ↔ g.graph.nodes[n.index]? = some entry ∧
      entry.function.tupleCall? = none ∧ entry.function.lazyTupleCall? = some body := by
  unfold lazyNode?
  cases g.graph.nodes[n.index]? with
  | none => simp
  | some entry' =>
      cases ht : entry'.function.tupleCall? with
      | some _ =>
          simp only [Option.bind_eq_bind, Option.bind_some, ht, Option.isSome_some, if_true, reduceCtorEq,
            Option.some.injEq, false_iff]
          rintro ⟨rfl, h, -⟩
          simp [ht] at h
      | none =>
          simp only [Option.bind_eq_bind, Option.bind_some, ht, Option.isSome_none, Bool.false_eq_true, if_false,
            Option.map_eq_some_iff, Prod.mk.injEq, Option.some.injEq]
          constructor
          · rintro ⟨_, hb, rfl, rfl⟩
            exact ⟨rfl, ht, hb⟩
          · rintro ⟨rfl, -, hb⟩
            exact ⟨_, hb, rfl, rfl⟩

namespace Evaluation

variable {e : Evaluation} {n : DataNode}

/-- The number of steps that a node may still take. -/
noncomputable def remaining (g : FunctionGraph) (acyclic : WellFounded g.graph.Feeds)
    (arguments : List (Option Value)) (e : Evaluation) (n : DataNode) : Nat :=
  if e.isFinished n then 0
  else match g.lazyNode? n with
    | some (entry, body) =>
      entry.entriesLeft body (g.inputValue acyclic arguments n) (e.callOf n entry body) + 1
    | none => 1

theorem remaining_pos (hf : e.isFinished n = false) : 0 < remaining g acyclic arguments e n := by
  unfold remaining
  rw [if_neg (by simp [hf])]
  split <;> exact Nat.succ_pos _

end Evaluation

namespace FunctionGraph

variable {e : Evaluation} {n : DataNode} {entry : NodeEntry}

theorem finishNode_eq (e : Evaluation) (n : DataNode) (entry : NodeEntry) (output : Tuple) :
    finishNode e n entry output =
      (entry.outputValues output).map fun vs => e.finish n (entry.outputSockets.zip vs) := by
  unfold finishNode NodeEntry.outputValues
  cases (List.range entry.outputCount).mapM output.value <;> rfl

theorem ignores_callNode {body : BodyEval Unit} (hb : body.IgnoresContext) :
    (g.callNode e n entry body).IgnoresContext :=
  ignores_bind (ignores_lift _) fun _ => ignores_bind (Function.ignores_callIn hb _ _) fun _ =>
    ignores_lift _

theorem result_callNode {body : BodyEval Unit} (hb : body.IgnoresContext) :
    (g.callNode e n entry body).result =
      (g.provideInputs e n (List.range entry.inputCount) entry.function.newTuples.input >>= fun t =>
        (entry.function.call body { entry.function.newTuples with input := t }).result >>= fun tuples =>
          entry.outputValues tuples.output).map fun vs => e.finish n (entry.outputSockets.zip vs) := by
  rw [callNode, result_bind fun _ => ignores_bind (Function.ignores_callIn hb _ _) fun _ =>
    ignores_lift _, result_lift]
  cases g.provideInputs e n (List.range entry.inputCount) entry.function.newTuples.input with
  | error fault => rfl
  | ok t =>
      change Eval.result _ = _
      rw [result_bind fun _ => ignores_lift _, Function.result_callIn hb]
      change _ = ((entry.function.call body _).result >>= _).map _
      cases (entry.function.call body { entry.function.newTuples with input := t }).result with
      | error fault => rfl
      | ok tuples =>
          change Eval.result _ = _
          rw [result_lift, finishNode_eq]
          rfl

theorem enterNode_eq {body : LazyBody} :
    g.enterNode e n entry body =
      Eval.lift (g.provideInputs e n (e.callOf n entry body).needed
        (e.callOf n entry body).tuples.input) >>= fun t =>
          Eval.lift (entry.stateOf body (e.callOf n entry body) t) >>= fun state =>
            Eval.within entry.frame (entry.function.nextLazy body state
              { (e.callOf n entry body).tuples with input := t }) >>= fun (needed, state, tuples) =>
                if state.done then entry.function.finishLazy state tuples >>= fun tuples =>
                  Eval.lift (finishNode e n entry tuples.output)
                else pure (e.suspend n ⟨tuples, some state, needed⟩) := by
  unfold enterNode Evaluation.callOf NodeEntry.opening NodeEntry.stateOf
  dsimp only
  generalize (e.suspendedCall? n).getD _ = call
  obtain ⟨tuples, state, needed⟩ := call
  cases state <;> rfl

theorem ignores_afterEntry (e : Evaluation) (n : DataNode) (entry : NodeEntry)
    (x : List Nat × LazyState × Tuples) :
    Eval.IgnoresContext (if x.2.1.done then entry.function.finishLazy x.2.1 x.2.2 >>= fun tuples =>
        Eval.lift (finishNode e n entry tuples.output)
      else pure (e.suspend n ⟨x.2.2, some x.2.1, x.1⟩)) := by
  split
  · exact ignores_bind (Function.ignores_finishLazy _ _) fun _ => ignores_lift _
  · exact ignores_pure _

theorem ignores_enterNode {body : LazyBody} (hb : body.IgnoresContext) :
    (g.enterNode e n entry body).IgnoresContext := by
  rw [enterNode_eq]
  exact ignores_bind (ignores_lift _) fun _ => ignores_bind (ignores_lift _) fun _ =>
    ignores_bind (ignores_within (Function.ignores_nextLazy hb _ _) _) (ignores_afterEntry e n entry)

theorem result_enterNode {body : LazyBody} (hb : body.IgnoresContext) :
    (g.enterNode e n entry body).result =
      g.provideInputs e n (e.callOf n entry body).needed (e.callOf n entry body).tuples.input >>= fun t =>
        entry.stateOf body (e.callOf n entry body) t >>= fun state =>
          (entry.function.nextLazy body state { (e.callOf n entry body).tuples with input := t }).result >>=
            fun (needed, state, tuples) =>
              if state.done then
                (entry.completed state tuples).map fun vs => e.finish n (entry.outputSockets.zip vs)
              else .ok (e.suspend n ⟨tuples, some state, needed⟩) := by
  have hnext (state : LazyState) (tuples : Tuples) := Function.ignores_nextLazy (f := entry.function)
    hb state tuples
  rw [enterNode_eq, result_bind fun _ => ignores_bind (ignores_lift _) fun _ =>
    ignores_bind (ignores_within (hnext _ _) _) (ignores_afterEntry e n entry), result_lift]
  congr 1
  funext t
  rw [result_bind fun _ => ignores_bind (ignores_within (hnext _ _) _) (ignores_afterEntry e n entry),
    result_lift]
  congr 1
  funext state
  rw [result_bind (ignores_afterEntry e n entry), result_within (hnext _ _)]
  congr 1
  funext (needed, state, tuples)
  dsimp only
  split
  · rw [result_bind fun _ => ignores_lift _, NodeEntry.completed]
    cases (entry.function.finishLazy state tuples).result with
    | error fault => rfl
    | ok tuples =>
        change Eval.result _ = _
        rw [result_lift, finishNode_eq]
        rfl
  · rfl

/-! ## A step of a node -/

section

variable (hn : g.graph.node n = .ok entry)
include hn

theorem step_eq_callNode {body : BodyEval Unit} (ht : entry.function.tupleCall? = some body) :
    g.step e n = g.callNode e n entry body := by
  rw [step, hn, lift_ok_bind, ht]

theorem step_eq_enterNode {body : LazyBody} (ht : entry.function.tupleCall? = none)
    (hb : entry.function.lazyTupleCall? = some body) : g.step e n = g.enterNode e n entry body := by
  rw [step, hn, lift_ok_bind, ht, hb]

theorem step_eq_throw (ht : entry.function.tupleCall? = none) (hb : entry.function.lazyTupleCall? = none) :
    g.step e n = throw (.notCallable entry.function.name) := by
  rw [step, hn, lift_ok_bind, ht, hb]

end

end FunctionGraph

namespace NodeEntry

variable {entry : NodeEntry} {input : Nat → Except Fault Value} {vs : List Value}

theorem length_outputValues {output : Tuple} (h : entry.outputValues output = .ok vs) :
    vs.length = entry.outputCount := by
  have hlen := (mapM_eq_ok_iff.mp h).length_eq
  simpa using hlen.symm

end NodeEntry

namespace Evaluation.Sound

variable {e : Evaluation} {n : DataNode} {entry : NodeEntry}

theorem callOf_agree (he : e.Sound g acyclic arguments entries) (hn : g.graph.nodes[n.index]? = some entry)
    {body : LazyBody} (ht : entry.function.tupleCall? = none)
    (hb : entry.function.lazyTupleCall? = some body) (hi : body.IgnoresContext) :
    Agree (g.nodeOutputs acyclic arguments n)
      (entry.complete body (g.inputValue acyclic arguments n) (e.callOf n entry body)) ∧
    ∀ i ∈ (e.callOf n entry body).needed, NodeEntry.Expected (g.inputValue acyclic arguments n)
      (e.callOf n entry body).tuples.input i := by
  unfold Evaluation.callOf
  cases hc : e.suspendedCall? n with
  | none =>
      refine ⟨?_, fun i _ => NodeEntry.expected_new _ i⟩
      rw [FunctionGraph.nodeOutputs_eq, Wiring.node_eq_ok_iff.mpr hn]
      change Agree (entry.evaluate _) _
      rw [NodeEntry.evaluate, ht, hb]
      change Agree (entry.callLazy body _) _
      rw [NodeEntry.callLazy_eq_complete hi]
      exact .refl _
  | some call =>
      obtain ⟨entry', body', state, hn', -, hb', -, hempty, hv, -⟩ := he.calls hc
      rw [hn] at hn'
      cases hn'
      rw [hb] at hb'
      cases hb'
      exact ⟨hv, fun i hmem => NodeEntry.expected_of_empty (hempty i hmem)⟩

/-- The call of a lazy node is over after some entries if it is when it is opened. -/
theorem enough_callOf (he : e.Sound g acyclic arguments entries) (hn : g.graph.nodes[n.index]? = some entry)
    {body : LazyBody} (hb : entry.function.lazyTupleCall? = some body)
    (hover : Enough (entry.completeWithin body (g.inputValue acyclic arguments n) (entry.opening body)) entries) :
    Enough (entry.completeWithin body (g.inputValue acyclic arguments n) (e.callOf n entry body)) entries := by
  unfold Evaluation.callOf
  cases hc : e.suspendedCall? n with
  | none => exact hover
  | some call =>
      obtain ⟨entry', body', state, hn', -, hb', -, -, -, hcall⟩ := he.calls hc
      rw [hn] at hn'
      cases hn'
      rw [hb] at hb'
      cases hb'
      exact hcall

end Evaluation.Sound

/-- The two evaluations stand at the same point with a node. -/
def Evaluation.SameAt (e e' : Evaluation) (n : DataNode) : Prop :=
  e'.isFinished n = e.isFinished n ∧ e'.suspendedCall? n = e.suspendedCall? n

/-- What comes of a step of a node. -/
structure Evaluation.Advances (g : FunctionGraph) (acyclic : WellFounded g.graph.Feeds)
    (arguments : List (Option Value)) (e e' : Evaluation) (n : DataNode) : Prop where
  fewer : remaining g acyclic arguments e' n < remaining g acyclic arguments e n
  others : ∀ m, m ≠ n → e.SameAt e' m

namespace Evaluation.Sound

variable {e : Evaluation} {n : DataNode} {entry : NodeEntry}

theorem advances_finish (he : e.Sound g acyclic arguments entries)
    (hn : g.graph.nodes[n.index]? = some entry) (hf : e.isFinished n = false)
    (outputs : List (OutputSocket × Value)) : Advances g acyclic arguments e (e.finish n outputs) n := by
  have hlt : n.index < e.finished.size := he.finished_size ▸ (Array.getElem?_eq_some_iff.mp hn).1
  refine ⟨?_, fun m hm => ⟨?_, suspendedCall?_finish_of_ne hm _⟩⟩
  · have hzero : remaining g acyclic arguments (e.finish n outputs) n = 0 := by
      rw [Evaluation.remaining, if_pos (by simp [isFinished_finish hlt])]
    rw [hzero]
    exact remaining_pos hf
  · rw [isFinished_finish hlt, decide_eq_false hm, Bool.false_or]

theorem advances_suspend (he : e.Sound g acyclic arguments entries)
    (hn : g.graph.nodes[n.index]? = some entry) (hf : e.isFinished n = false) {body : LazyBody}
    (ht : entry.function.tupleCall? = none) (hb : entry.function.lazyTupleCall? = some body)
    {call : SuspendedCall} (hlt : entry.entriesLeft body (g.inputValue acyclic arguments n) call <
      entry.entriesLeft body (g.inputValue acyclic arguments n) (e.callOf n entry body)) :
    Advances g acyclic arguments e (e.suspend n call) n := by
  have hsize : n.index < e.suspended.size :=
    he.suspended_size ▸ (Array.getElem?_eq_some_iff.mp hn).1
  have hlazy := FunctionGraph.lazyNode?_eq_some_iff.mpr ⟨hn, ht, hb⟩
  refine ⟨?_, fun m hm => ⟨rfl, suspendedCall?_suspend_of_ne hm call⟩⟩
  rw [Evaluation.remaining, Evaluation.remaining, isFinished_suspend, if_neg (by simp [hf]), if_neg (by simp [hf]),
    hlazy]
  refine Nat.succ_lt_succ ?_
  rwa [callOf, suspendedCall?_suspend_self hsize, Option.getD_some]

end Evaluation.Sound

end Nodeflow
