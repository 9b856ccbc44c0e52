import Nodeflow.Proofs.FunctionGraph.Outcome
import Mathlib.Algebra.Order.BigOperators.Group.List
import Mathlib.Algebra.Order.Ring.Nat

/-!
# Rounds of an evaluation

Working on a stack of nodes computes all of them, unless the recursive evaluation of one of them
fails. The number of rounds is bounded by twice the number of steps that the nodes below a rank may
still take: a node is looked at once to put its inputs on the stack, and once more to take a step.
-/

namespace Nodeflow

open Eval Evaluation

variable {g : FunctionGraph} {acyclic : WellFounded g.graph.Feeds} {arguments : List (Option Value)}
  {rank : DataNode → Nat} {entries : Nat}

/-- All nodes are carried out in the same way in every context. -/
def FunctionGraph.IgnoresContext (g : FunctionGraph) : Prop :=
  ∀ (n : Nat) (entry : NodeEntry), g.graph.nodes[n]? = some entry → entry.function.IgnoresContext

namespace FunctionGraph

theorem ignores_step (hi : g.IgnoresContext) (e : Evaluation) (n : DataNode) :
    (g.step e n).IgnoresContext := by
  cases hn : g.graph.node n with
  | error fault =>
      rw [step, hn]
      exact ignores_throw fault
  | ok entry =>
      have hentry := hi n.index entry (Wiring.node_eq_ok_iff.mp hn)
      cases ht : entry.function.tupleCall? with
      | some body =>
          rw [step_eq_callNode hn ht]
          exact ignores_callNode (hentry.1 body ht)
      | none =>
          cases hb : entry.function.lazyTupleCall? with
          | some body =>
              rw [step_eq_enterNode hn ht hb]
              exact ignores_enterNode (hentry.2 body hb)
          | none =>
              rw [step_eq_throw hn ht hb]
              exact ignores_throw _

theorem ignores_compute (hi : g.IgnoresContext) (limit : Fault) (rounds : Nat)
    (stack : List DataNode) (e : Evaluation) : (g.compute limit rounds stack e).IgnoresContext := by
  induction rounds generalizing stack e with
  | zero => exact ignores_throw limit
  | succ rounds ih =>
      rw [compute]
      split
      · exact ignores_pure e
      · refine ignores_bind (ignores_lift _) fun pending => ?_
        split
        · exact ignores_bind (ignores_step hi _ _) fun _ => ih _ _
        · exact ih _ _

theorem compute_of_finished {e : Evaluation} {n : DataNode} (hf : e.isFinished n = true)
    (limit : Fault) (rounds : Nat) (rest : List DataNode) :
    g.compute limit rounds (n :: rest) e = g.compute limit rounds rest e := by
  cases rounds with
  | zero => rfl
  | succ rounds => rw [compute, compute, List.dropWhile_cons_of_pos hf]

theorem result_compute (hi : g.IgnoresContext) {e : Evaluation} {n : DataNode}
    (hf : e.isFinished n = false) (limit : Fault) (rounds : Nat) (rest : List DataNode) :
    (g.compute limit (1 + rounds) (n :: rest) e).result = g.pendingNodes e n >>= fun pending =>
      if pending.isEmpty then
        (g.step e n).result >>= fun e => (g.compute limit rounds (n :: rest) e).result
      else (g.compute limit rounds (pending.reverse ++ n :: rest) e).result := by
  have hround (pending : List DataNode) : Eval.IgnoresContext (if pending.isEmpty then
      g.step e n >>= fun e => g.compute limit rounds (n :: rest) e
      else g.compute limit rounds (pending.reverse ++ n :: rest) e) := by
    split
    · exact ignores_bind (ignores_step hi e n) fun _ => ignores_compute hi _ _ _ _
    · exact ignores_compute hi _ _ _ _
  rw [Nat.add_comm, compute, List.dropWhile_cons_of_neg (by simp [hf])]
  rw [result_bind hround, result_lift]
  congr 1
  funext pending
  split
  · exact result_bind fun _ => ignores_compute hi _ _ _ _
  · rfl

end FunctionGraph

/-- Where all bodies leave the counts alone, no call has more entries than can be counted. -/
theorem FunctionGraph.LeavesCounts.endsWithin (h : g.LeavesCounts) (hi : g.IgnoresContext) :
    g.EndsWithin acyclic arguments UInt32.size := by
  intro n entry body hn ht hb
  have hbody := (hi n.index entry hn).2 body hb
  rw [NodeEntry.callLazyWithin_eq hbody]
  refine NodeEntry.enough_of_leavesCount hbody (h n.index entry body hn hb) fun t s hs => ?_
  exact Nat.le_add_left _ _

namespace Evaluation

variable {e e' : Evaluation} {n : DataNode}

theorem SameAt.remaining_eq (h : e.SameAt e' n) :
    remaining g acyclic arguments e' n = remaining g acyclic arguments e n := by
  simp only [remaining, callOf, h.1, h.2]

theorem Sound.remaining_le (he : e.Sound g acyclic arguments entries) (hi : g.IgnoresContext)
    (hends : g.EndsWithin acyclic arguments entries) (n : DataNode) :
    remaining g acyclic arguments e n ≤ entries + 1 := by
  unfold remaining
  split
  · exact Nat.zero_le _
  · cases hlazy : g.lazyNode? n with
    | none => exact Nat.succ_le_succ (Nat.zero_le _)
    | some node =>
        obtain ⟨entry, body⟩ := node
        obtain ⟨hn, ht, hb⟩ := FunctionGraph.lazyNode?_eq_some_iff.mp hlazy
        have hopening := hends n entry body hn ht hb
        rw [NodeEntry.callLazyWithin_eq ((hi n.index entry hn).2 body hb)] at hopening
        exact Nat.succ_le_succ (Nat.sInf_le (he.enough_callOf hn hb hopening))

/-- The number of steps that the nodes below a rank may still take. -/
noncomputable def work (g : FunctionGraph) (acyclic : WellFounded g.graph.Feeds)
    (arguments : List (Option Value)) (rank : DataNode → Nat) (bound : Nat) (e : Evaluation) : Nat :=
  ((List.range g.graph.nodes.size).map fun i =>
    if rank ⟨i⟩ < bound then remaining g acyclic arguments e ⟨i⟩ else 0).sum

theorem Sound.work_le (he : e.Sound g acyclic arguments entries) (hi : g.IgnoresContext)
    (hends : g.EndsWithin acyclic arguments entries) (rank : DataNode → Nat) (bound : Nat) :
    work g acyclic arguments rank bound e ≤ g.graph.nodes.size * (entries + 1) := by
  have h := List.sum_le_card_nsmul ((List.range g.graph.nodes.size).map fun i =>
    if rank ⟨i⟩ < bound then remaining g acyclic arguments e ⟨i⟩ else 0) (entries + 1) (by
      intro x hx
      obtain ⟨i, -, rfl⟩ := List.mem_map.mp hx
      split
      · exact he.remaining_le hi hends _
      · exact Nat.zero_le _)
  simpa [work] using h

theorem work_mono (g : FunctionGraph) (acyclic : WellFounded g.graph.Feeds)
    (arguments : List (Option Value)) (rank : DataNode → Nat) {bound bound' : Nat}
    (hb : bound ≤ bound') (e : Evaluation) :
    work g acyclic arguments rank bound e ≤ work g acyclic arguments rank bound' e := by
  refine List.sum_le_sum fun i _ => ?_
  split
  · rw [if_pos (by omega)]
  · exact Nat.zero_le _

theorem work_lt_succ (acyclic : WellFounded g.graph.Feeds) (arguments : List (Option Value))
    (rank : DataNode → Nat) (hn : n.index < g.graph.nodes.size) (hf : e.isFinished n = false) :
    work g acyclic arguments rank (rank n) e < work g acyclic arguments rank (rank n + 1) e := by
  refine List.sum_lt_sum _ _ (fun i _ => ?_) ⟨n.index, List.mem_range.mpr hn, ?_⟩
  · split
    · rw [if_pos (by omega)]
    · exact Nat.zero_le _
  · rw [if_neg (by simp), if_pos (by simp)]
    exact remaining_pos hf

theorem Advances.work_lt (h : Advances g acyclic arguments e e' n) (rank : DataNode → Nat)
    (hn : n.index < g.graph.nodes.size) :
    work g acyclic arguments rank (rank n + 1) e' < work g acyclic arguments rank (rank n + 1) e := by
  have hle (m : DataNode) : remaining g acyclic arguments e' m ≤ remaining g acyclic arguments e m := by
    by_cases hm : m = n
    · exact hm ▸ h.fewer.le
    · exact (h.others m hm).remaining_eq.le
  refine List.sum_lt_sum _ _ (fun i _ => ?_) ⟨n.index, List.mem_range.mpr hn, ?_⟩
  · split
    · exact hle _
    · exact le_refl _
  · rw [if_pos (by simp), if_pos (by simp)]
    exact h.fewer

/-- Work that is done below a rank is as much work done below a higher rank. -/
theorem work_exchange (acyclic : WellFounded g.graph.Feeds) (arguments : List (Option Value))
    {bound bound' : Nat} (hb : bound ≤ bound') (hsame : ∀ m, bound ≤ rank m → e.SameAt e' m) :
    work g acyclic arguments rank bound e + work g acyclic arguments rank bound' e' =
      work g acyclic arguments rank bound e' + work g acyclic arguments rank bound' e := by
  unfold work
  rw [← List.sum_map_add, ← List.sum_map_add]
  congr 1
  refine List.map_congr_left fun i _ => ?_
  by_cases hi : rank ⟨i⟩ < bound
  · simp [hi, lt_of_lt_of_le hi hb, Nat.add_comm]
  · rw [if_neg hi, if_neg hi, (hsame ⟨i⟩ (Nat.le_of_not_lt hi)).remaining_eq]

end Evaluation

end Nodeflow
