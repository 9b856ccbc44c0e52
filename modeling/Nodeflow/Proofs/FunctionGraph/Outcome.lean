import Nodeflow.Proofs.FunctionGraph.Steps

/-!
# Outcomes of steps

A step of a node whose needed inputs are there either brings the evaluation on, or ends in a fault
where the recursive evaluation of the node ends in a fault.
-/

namespace Nodeflow

open Eval

variable {g : FunctionGraph} {acyclic : WellFounded g.graph.Feeds} {arguments : List (Option Value)}
  {entries : Nat}

/-- The recursive evaluation of a node ends in a fault. -/
def FunctionGraph.Fails (g : FunctionGraph) (acyclic : WellFounded g.graph.Feeds)
    (arguments : List (Option Value)) (n : DataNode) : Prop :=
  ∀ vs, g.nodeOutputs acyclic arguments n ≠ .ok vs

/-- Each lazy node, carried out on its own, is over before a number of entries is used up. -/
def FunctionGraph.EndsWithin (g : FunctionGraph) (acyclic : WellFounded g.graph.Feeds)
    (arguments : List (Option Value)) (entries : Nat) : Prop :=
  ∀ (n : DataNode) (entry : NodeEntry) (body : LazyBody), g.graph.nodes[n.index]? = some entry →
    entry.function.tupleCall? = none → entry.function.lazyTupleCall? = some body →
      Enough (entry.callLazyWithin body (g.inputValue acyclic arguments n)) entries

/-- The lazy bodies of all nodes leave the counts of their entries alone. -/
def FunctionGraph.LeavesCounts (g : FunctionGraph) : Prop :=
  ∀ (n : Nat) (entry : NodeEntry) (body : LazyBody), g.graph.nodes[n]? = some entry →
    entry.function.lazyTupleCall? = some body → body.LeavesCount

namespace Evaluation.Sound

variable {e : Evaluation} {n : DataNode} {entry : NodeEntry}

theorem nodeOutputs_tupleCall (hn : g.graph.nodes[n.index]? = some entry) {body : BodyEval Unit}
    (hb : entry.function.tupleCall? = some body) : g.nodeOutputs acyclic arguments n =
      entry.call body (g.inputValue acyclic arguments n) := by
  rw [FunctionGraph.nodeOutputs_eq, Wiring.node_eq_ok_iff.mpr hn]
  change entry.evaluate _ = _
  rw [NodeEntry.evaluate, hb]

theorem needed_callOf {body : LazyBody} (ht : entry.function.tupleCall? = none)
    (hb : entry.function.lazyTupleCall? = some body) {needed : List Nat}
    (hneeded : FunctionGraph.neededInputs e n entry = .ok needed) :
    (e.callOf n entry body).needed = needed := by
  unfold FunctionGraph.neededInputs at hneeded
  rw [ht, hb] at hneeded
  unfold Evaluation.callOf
  cases hc : e.suspendedCall? n with
  | none =>
      simp only [hc, Except.ok.injEq] at hneeded
      exact hneeded
  | some call =>
      simp only [hc, Except.ok.injEq] at hneeded
      exact hneeded

theorem fails_of_needed (he : e.Sound g acyclic arguments entries)
    (hn : g.graph.nodes[n.index]? = some entry) (hi : entry.function.IgnoresContext)
    {needed : List Nat} (hneeded : FunctionGraph.neededInputs e n entry = .ok needed) {i : Nat}
    (hmem : i ∈ needed) (hv : ∀ v, g.inputValue acyclic arguments n i ≠ .ok v) :
    g.Fails acyclic arguments n := by
  intro vs h
  cases ht : entry.function.tupleCall? with
  | some body =>
      rw [FunctionGraph.neededInputs, ht] at hneeded
      cases hneeded
      rw [nodeOutputs_tupleCall hn ht, NodeEntry.call, bind_eq_ok_iff] at h
      obtain ⟨t, hpre, -⟩ := h
      exact NodeEntry.preset_ne_ok hmem hv t hpre
  | none =>
      cases hb : entry.function.lazyTupleCall? with
      | none =>
          rw [FunctionGraph.neededInputs, ht, hb] at hneeded
          cases hneeded
      | some body =>
          obtain ⟨hag, -⟩ := he.callOf_agree hn ht hb (hi.2 body hb)
          have hcomplete := (hag vs).mp h
          rw [NodeEntry.complete_eq (hi.2 body hb), NodeEntry.nextOf, bind_assoc, bind_eq_ok_iff] at hcomplete
          obtain ⟨t, hpre, -⟩ := hcomplete
          exact NodeEntry.preset_ne_ok (needed_callOf ht hb hneeded ▸ hmem) hv t hpre

/-- Either way a step can end. -/
def Stepped (g : FunctionGraph) (acyclic : WellFounded g.graph.Feeds)
    (arguments : List (Option Value)) (entries : Nat) (e : Evaluation) (n : DataNode)
    (r : Except Fault Evaluation) : Prop :=
  (∃ fault, r = .error fault ∧ g.Fails acyclic arguments n) ∨
    ∃ e', r = .ok e' ∧ e'.Sound g acyclic arguments entries ∧ Advances g acyclic arguments e e' n

theorem stepped_finish (he : e.Sound g acyclic arguments entries) (hg : Wiring.Numbered g.graph)
    (hn : g.graph.nodes[n.index]? = some entry) (hf : e.isFinished n = false)
    {outputs : Except Fault (List Value)} (hout : Agree (g.nodeOutputs acyclic arguments n) outputs)
    (hlen : ∀ vs, outputs = .ok vs → vs.length = entry.outputCount) :
    Stepped g acyclic arguments entries e n
      (outputs.map fun vs => e.finish n (entry.outputSockets.zip vs)) := by
  cases outputs with
  | error fault => exact .inl ⟨fault, rfl, fun vs h => absurd ((hout vs).mp h) (by simp)⟩
  | ok vs =>
      exact .inr ⟨_, rfl, he.finish hg hn hf ((hout vs).mpr rfl) (hlen vs rfl),
        he.advances_finish hn hf _⟩

/-- A part of a step that fails where the recursive evaluation fails. -/
theorem stepped_bind {α : Type} {x y : Except Fault α} {f : α → Except Fault (List Value)}
    {k : α → Except Fault Evaluation} (hxy : Agree x y)
    (hout : Agree (g.nodeOutputs acyclic arguments n) (y >>= f))
    (hk : ∀ a, x = .ok a → Agree (g.nodeOutputs acyclic arguments n) (f a) →
      Stepped g acyclic arguments entries e n (k a)) : Stepped g acyclic arguments entries e n (x >>= k) := by
  cases hx : x with
  | error fault =>
      refine .inl ⟨fault, rfl, fun vs h => ?_⟩
      obtain ⟨a, ha, -⟩ := bind_eq_ok_iff.mp ((hout vs).mp h)
      have hxa := (hxy a).mpr ha
      rw [hx] at hxa
      cases hxa
  | ok a =>
      have hy : y = .ok a := (hxy a).mp hx
      rw [hy] at hout
      exact hk a hx hout

theorem stepped_callNode (he : e.Sound g acyclic arguments entries) (hg : Wiring.Numbered g.graph)
    (hn : g.graph.nodes[n.index]? = some entry) (hf : e.isFinished n = false) {body : BodyEval Unit}
    (ht : entry.function.tupleCall? = some body) (hi : body.IgnoresContext)
    (hp : ∀ i ∈ List.range entry.inputCount, g.pendingNode? e n i = .ok none) :
    Stepped g acyclic arguments entries e n (g.callNode e n entry body).result := by
  rw [FunctionGraph.result_callNode hi]
  refine he.stepped_finish hg hn hf ?_ fun vs h => ?_
  · rw [nodeOutputs_tupleCall hn ht]
    exact .bind (he.provideInputs_agree hp fun i _ => NodeEntry.expected_new _ i).symm
      fun t _ => .refl _
  · simp only [bind_eq_ok_iff] at h
    obtain ⟨t, -, tuples, -, hvs⟩ := h
    exact NodeEntry.length_outputValues hvs

theorem stepped_enterNode (he : e.Sound g acyclic arguments entries) (hg : Wiring.Numbered g.graph)
    (hn : g.graph.nodes[n.index]? = some entry) (hf : e.isFinished n = false) {body : LazyBody}
    (ht : entry.function.tupleCall? = none) (hb : entry.function.lazyTupleCall? = some body)
    (hi : body.IgnoresContext)
    (hp : ∀ i ∈ (e.callOf n entry body).needed, g.pendingNode? e n i = .ok none)
    (hover : Enough (entry.completeWithin body (g.inputValue acyclic arguments n) (entry.opening body)) entries) :
    Stepped g acyclic arguments entries e n (g.enterNode e n entry body).result := by
  obtain ⟨hag, hexp⟩ := he.callOf_agree hn ht hb hi
  have hpreset := he.provideInputs_agree hp hexp
  rw [NodeEntry.complete_eq hi] at hag
  simp only [NodeEntry.nextOf, bind_assoc] at hag
  rw [FunctionGraph.result_enterNode hi]
  refine stepped_bind hpreset hag fun t ht' hag => ?_
  refine stepped_bind (.refl _) hag fun state hstate hag => ?_
  refine stepped_bind (.refl _) hag ?_
  rintro ⟨needed, state', tuples⟩ hentry hag
  have hempty := Function.isFilled_of_result_nextLazy hi hentry
  have hnext : entry.nextOf body (g.inputValue acyclic arguments n) (e.callOf n entry body) =
      .ok (needed, state', tuples) := by
    rw [NodeEntry.nextOf, (hpreset t).mp ht', ok_bind, hstate, ok_bind, hentry]
  have hcall := he.enough_callOf hn hb hover
  cases hdone : state'.done with
  | true =>
      simp only [hdone, if_true] at hag ⊢
      refine he.stepped_finish hg hn hf hag fun vs h => ?_
      obtain ⟨tuples', -, hvs⟩ := bind_eq_ok_iff.mp h
      exact NodeEntry.length_outputValues hvs
  | false =>
      simp only [hdone, Bool.false_eq_true, if_false] at hag ⊢
      exact .inr ⟨_, rfl, he.suspend hn ht hb rfl hempty hag (NodeEntry.enough_suspended hi hnext hdone hcall),
        he.advances_suspend hn hf ht hb (NodeEntry.entriesLeft_lt hi hnext hdone hcall)⟩

theorem stepped_step (he : e.Sound g acyclic arguments entries) (hg : Wiring.Numbered g.graph)
    (hn : g.graph.nodes[n.index]? = some entry) (hi : entry.function.IgnoresContext)
    (hf : e.isFinished n = false) {needed : List Nat}
    (hneeded : FunctionGraph.neededInputs e n entry = .ok needed)
    (hp : ∀ i ∈ needed, g.pendingNode? e n i = .ok none) (hends : g.EndsWithin acyclic arguments entries) :
    Stepped g acyclic arguments entries e n (g.step e n).result := by
  have hnode := Wiring.node_eq_ok_iff.mpr hn
  cases ht : entry.function.tupleCall? with
  | some body =>
      rw [FunctionGraph.neededInputs, ht] at hneeded
      cases hneeded
      rw [FunctionGraph.step_eq_callNode hnode ht]
      exact he.stepped_callNode hg hn hf ht (hi.1 body ht) hp
  | none =>
      cases hb : entry.function.lazyTupleCall? with
      | none =>
          rw [FunctionGraph.neededInputs, ht, hb] at hneeded
          cases hneeded
      | some body =>
          rw [FunctionGraph.step_eq_enterNode hnode ht hb]
          refine he.stepped_enterNode hg hn hf ht hb (hi.2 body hb) ?_ ?_
          · rw [needed_callOf ht hb hneeded]
            exact hp
          · rw [← NodeEntry.callLazyWithin_eq (hi.2 body hb)]
            exact hends n entry body hn ht hb

end Evaluation.Sound

end Nodeflow
