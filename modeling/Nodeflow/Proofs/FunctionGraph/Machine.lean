import Nodeflow.Proofs.FunctionGraph.Interpreter
import Nodeflow.Proofs.Function.Protocol
import Mathlib.Logic.Relation
import Mathlib.Data.List.TakeWhile

/-!
# The evaluation as a machine

The evaluation of a function graph, taken apart into moves: a result is passed over, demanded or
stored; a finished node is dropped from the stack; a node that waits for others puts them on the
stack; and a node that waits for none is run. The machine keeps a log of the runs, and an evaluation
that returns is a sequence of moves that ends with nothing left to do.
-/

namespace Nodeflow

open Eval Evaluation

/-- What is run: a call of a tuple-call body, or an entry of a lazy one. -/
inductive NodeAction where
  | call (tuples results : Tuples)
  | entry (entry : LazyEntry)

/-- A run of a node, with the inputs that are stored for it. -/
structure NodeRun where
  node : DataNode
  given : List Nat
  action : NodeAction

def NodeRun.Finishes (r : NodeRun) : Prop :=
  match r.action with
  | .call .. => True
  | .entry x => x.after.done = true

namespace FunctionGraph

variable {g : FunctionGraph} {e e' : Evaluation} {n : DataNode} {c c' : Context}

/-- A node that waits for no other is run, and is finished or suspended then. -/
inductive Runs (g : FunctionGraph) (e : Evaluation) (n : DataNode) (c : Context) :
    NodeRun → Evaluation → Context → Prop
  | call {entry body input results vs c'} (hn : g.graph.node n = .ok entry)
      (ht : entry.function.tupleCall? = some body)
      (hinput : g.provideInputs e n (List.range entry.inputCount) entry.function.newTuples.input = .ok input)
      (hcall : runOn c (entry.function.callIn body entry.frame { entry.function.newTuples with input }) =
        (.ok results, c'))
      (hvalues : entry.outputValues results.output = .ok vs) :
      Runs g e n c ⟨n, List.range entry.inputCount, .call { entry.function.newTuples with input } results⟩
        (e.finish n (entry.outputSockets.zip vs)) c'
  | last {entry body input s x closed vs c₁ c₂} (hn : g.graph.node n = .ok entry)
      (ht : entry.function.tupleCall? = none) (hb : entry.function.lazyTupleCall? = some body)
      (hinput : g.provideInputs e n (e.callOf n entry body).needed
        (e.callOf n entry body).tuples.input = .ok input)
      (hstate : entry.stateOf body (e.callOf n entry body) input = .ok s)
      (hnext : s.nextEntry = .ok x.state)
      (htuples : x.tuples = { (e.callOf n entry body).tuples with input })
      (hrun : x.Happens entry.function body (c.push entry.frame) c₁) (hdone : x.after.done = true)
      (hclose : runOn c₁.pop.2 (entry.function.finishLazy x.after x.left) = (.ok closed, c₂))
      (hvalues : entry.outputValues closed.output = .ok vs) :
      Runs g e n c ⟨n, (e.callOf n entry body).needed, .entry x⟩ (e.finish n (entry.outputSockets.zip vs)) c₂
  | next {entry body input s x needed c₁} (hn : g.graph.node n = .ok entry)
      (ht : entry.function.tupleCall? = none) (hb : entry.function.lazyTupleCall? = some body)
      (hinput : g.provideInputs e n (e.callOf n entry body).needed
        (e.callOf n entry body).tuples.input = .ok input)
      (hstate : entry.stateOf body (e.callOf n entry body) input = .ok s)
      (hnext : s.nextEntry = .ok x.state)
      (htuples : x.tuples = { (e.callOf n entry body).tuples with input })
      (hrun : x.Happens entry.function body (c.push entry.frame) c₁) (hdone : x.after.done = false)
      (hasked : x.after.requested ≠ [])
      (hneeded : Function.stillEmpty x.left.input x.after.requested = .ok needed) :
      Runs g e n c ⟨n, (e.callOf n entry body).needed, .entry x⟩
        (e.suspend n ⟨x.left, some { x.after with requested := [] }, needed⟩) c₁.pop.2

theorem Runs.node_eq {r : NodeRun} (h : g.Runs e n c r e' c') : r.node = n := by
  cases h <;> rfl

theorem exists_runs (h : runOn c (g.step e n) = (.ok e', c')) : ∃ r, g.Runs e n c r e' c' := by
  cases hn : g.graph.node n with
  | error fault =>
      rw [step, hn] at h
      cases h
  | ok entry =>
      cases ht : entry.function.tupleCall? with
      | some body =>
          rw [step_eq_callNode hn ht, callNode] at h
          simp only [runOn_bind_eq_ok_iff, runOn_lift_eq_ok_iff, finishNode_eq, map_eq_ok_iff] at h
          obtain ⟨input, _, ⟨hinput, rfl⟩, results, c₁, hcall, ⟨vs, hvalues, rfl⟩, rfl⟩ := h
          exact ⟨_, .call hn ht hinput hcall hvalues⟩
      | none =>
          cases hb : entry.function.lazyTupleCall? with
          | none =>
              rw [step_eq_throw hn ht hb] at h
              cases h
          | some body =>
              rw [step_eq_enterNode hn ht hb, enterNode_eq] at h
              simp only [runOn_bind_eq_ok_iff, runOn_lift_eq_ok_iff, runOn_within_eq_ok_iff] at h
              obtain ⟨input, _, ⟨hinput, rfl⟩, s, _, ⟨hstate, rfl⟩, ⟨needed, s', left⟩, _, ⟨c₁, hentry, rfl⟩, h⟩ := h
              obtain ⟨x, hnext, htuples, hrun, hafter⟩ := Function.runOn_nextLazy_eq_ok_iff.mp hentry
              obtain ⟨rfl, ⟨hdone, rfl, rfl⟩ | ⟨hdone, hasked, hneeded, rfl⟩⟩ :=
                Function.afterEntry_eq_ok_iff.mp hafter
              · dsimp only at h
                rw [if_pos hdone] at h
                simp only [runOn_bind_eq_ok_iff, runOn_lift_eq_ok_iff, finishNode_eq, map_eq_ok_iff] at h
                obtain ⟨closed, _, hclose, ⟨vs, hvalues, rfl⟩, rfl⟩ := h
                exact ⟨_, .last hn ht hb hinput hstate hnext htuples hrun hdone hclose hvalues⟩
              · dsimp only at h
                rw [if_neg (by simp [hdone])] at h
                cases h
                exact ⟨_, .next hn ht hb hinput hstate hnext htuples hrun hdone hasked hneeded⟩

/-- A configuration of the machine. -/
structure Configuration where
  /-- The results that have not been looked at, with their positions. -/
  todo : List (DataSocket × Nat)
  output : Tuple
  /-- The nodes that are waited for, innermost first. -/
  stack : List DataNode
  evaluation : Evaluation
  context : Context
  /-- The runs so far, oldest first. -/
  runs : List NodeRun

def initial (g : FunctionGraph) (tuples : Tuples) (c : Context) : Configuration :=
  ⟨g.outputs.zipIdx, tuples.output, [], .start g tuples.input.contents, c, []⟩

def Configuration.Final (k : Configuration) : Prop := k.todo = [] ∧ k.stack = []

inductive Move (g : FunctionGraph) : Configuration → Configuration → Prop
  | keep {s o todo output e c runs} (hfilled : output.isFilled o = .ok true) :
      Move g ⟨(s, o) :: todo, output, [], e, c, runs⟩ ⟨todo, output, [], e, c, runs⟩
  | demand {s o todo output e c runs n} (hempty : output.isFilled o = .ok false)
      (hsource : g.sourceNode? s = .ok (some n)) (hfinished : e.isFinished n = false) :
      Move g ⟨(s, o) :: todo, output, [], e, c, runs⟩ ⟨(s, o) :: todo, output, [n], e, c, runs⟩
  | store {s o todo output e c runs v old output'} (hempty : output.isFilled o = .ok false)
      (hready : ∀ n, g.sourceNode? s = .ok (some n) → e.isFinished n = true)
      (hvalue : g.available e s = .ok v) (hput : output.put o v = .ok (old, output')) :
      Move g ⟨(s, o) :: todo, output, [], e, c, runs⟩ ⟨todo, output', [], e, c, runs⟩
  | drop {todo output n stack e c runs} (hfinished : e.isFinished n = true) :
      Move g ⟨todo, output, n :: stack, e, c, runs⟩ ⟨todo, output, stack, e, c, runs⟩
  | wait {todo output n stack e c runs pending} (hfinished : e.isFinished n = false)
      (hpending : g.pendingNodes e n = .ok pending) (hne : pending ≠ []) :
      Move g ⟨todo, output, n :: stack, e, c, runs⟩
        ⟨todo, output, pending.reverse ++ n :: stack, e, c, runs⟩
  | run {todo output n stack e c runs r e' c'} (hfinished : e.isFinished n = false)
      (hpending : g.pendingNodes e n = .ok []) (hrun : g.Runs e n c r e' c') :
      Move g ⟨todo, output, n :: stack, e, c, runs⟩ ⟨todo, output, n :: stack, e', c', runs ++ [r]⟩

abbrev Reaches (g : FunctionGraph) : Configuration → Configuration → Prop :=
  Relation.ReflTransGen g.Move

theorem isFinished_finish_of_isFinished {m : DataNode} (hm : e.isFinished m = true)
    (outputs : List (OutputSocket × Value)) : (e.finish n outputs).isFinished m = true := by
  simp only [isFinished, finish, Array.getElem?_setIfInBounds] at hm ⊢
  split
  · split
    · rfl
    · rw [Array.getElem?_eq_none (by omega)] at hm
      cases hm
  · exact hm

theorem Runs.isFinished {r : NodeRun} (h : g.Runs e n c r e' c') {m : DataNode}
    (hm : e.isFinished m = true) : e'.isFinished m = true := by
  cases h with
  | call => exact isFinished_finish_of_isFinished hm _
  | last => exact isFinished_finish_of_isFinished hm _
  | next => exact hm

theorem reaches_dropWhile (todo : List (DataSocket × Nat)) (output : Tuple) (stack : List DataNode)
    (e : Evaluation) (c : Context) (runs : List NodeRun) :
    g.Reaches ⟨todo, output, stack, e, c, runs⟩ ⟨todo, output, stack.dropWhile e.isFinished, e, c, runs⟩ := by
  induction stack with
  | nil => exact .refl
  | cons n stack ih =>
      cases hn : e.isFinished n with
      | true =>
          rw [List.dropWhile_cons_of_pos hn]
          exact .head (.drop hn) ih
      | false => rw [List.dropWhile_cons_of_neg (by simp [hn])]

/-- Work on a stack is a sequence of moves, and finishes all nodes of the stack. -/
theorem reaches_compute {limit : Fault} {rounds : Nat} {stack : List DataNode}
    (h : runOn c (g.compute limit rounds stack e) = (.ok e', c')) (todo : List (DataSocket × Nat))
    (output : Tuple) (runs : List NodeRun) :
    (∃ runs', g.Reaches ⟨todo, output, stack, e, c, runs⟩ ⟨todo, output, [], e', c', runs'⟩) ∧
      (∀ m, e.isFinished m = true → e'.isFinished m = true) ∧ ∀ m ∈ stack, e'.isFinished m = true := by
  -- by induction on the rounds, for any log, since a round may add a run before the others go on
  induction rounds generalizing stack e c runs with
  | zero => cases h
  | succ rounds ih =>
      have hdrop := g.reaches_dropWhile todo output stack e c runs
      -- The dropped nodes are finished already.
      have hstack (hkept : ∀ m, e.isFinished m = true → e'.isFinished m = true)
          (hrest : ∀ m ∈ stack.dropWhile e.isFinished, e'.isFinished m = true) :
          ∀ m ∈ stack, e'.isFinished m = true := by
        intro m hm
        rw [← List.takeWhile_append_dropWhile (p := e.isFinished) (l := stack), List.mem_append] at hm
        exact hm.elim (fun hm => hkept m (List.mem_takeWhile_imp hm)) (hrest m)
      rw [compute] at h
      cases hnodes : stack.dropWhile e.isFinished with
      | nil =>
          rw [hnodes] at h hdrop hstack
          cases h
          exact ⟨⟨runs, hdrop⟩, fun _ hm => hm, hstack (fun _ hm => hm) (by simp)⟩
      | cons n rest =>
          have hn : e.isFinished n = false := by
            have hhead := List.head?_dropWhile_not e.isFinished stack
            rw [hnodes] at hhead
            simpa using hhead
          rw [hnodes] at h hdrop hstack
          simp only [runOn_bind_eq_ok_iff, runOn_lift_eq_ok_iff] at h
          obtain ⟨pending, _, ⟨hpending, rfl⟩, h⟩ := h
          cases pending with
          | nil =>
              rw [List.isEmpty_nil, if_pos rfl, runOn_bind_eq_ok_iff] at h
              obtain ⟨e₁, c₁, hstep, h⟩ := h
              obtain ⟨r, hrun⟩ := exists_runs hstep
              obtain ⟨⟨runs', hreach⟩, hkept, hrest⟩ := ih h (runs ++ [r])
              have hkept' (m : DataNode) (hm : e.isFinished m = true) := hkept m (hrun.isFinished hm)
              exact ⟨⟨runs', hdrop.trans (.head (.run hn hpending hrun) hreach)⟩, hkept',
                hstack hkept' hrest⟩
          | cons m pending =>
              rw [List.isEmpty_cons, if_neg (by simp)] at h
              obtain ⟨⟨runs', hreach⟩, hkept, hrest⟩ := ih h runs
              exact ⟨⟨runs', hdrop.trans (.head (.wait hn hpending (by simp)) hreach)⟩, hkept,
                hstack hkept fun m hm => hrest m (List.mem_append_right _ hm)⟩

theorem reaches_computeResult {limit : Fault} {rounds : Nat} {s : DataSocket} {o : Nat}
    {output output' : Tuple}
    (h : runOn c (g.computeResult limit rounds (output, e) (s, o)) = (.ok (output', e'), c'))
    (todo : List (DataSocket × Nat)) (runs : List NodeRun) :
    ∃ runs', g.Reaches ⟨(s, o) :: todo, output, [], e, c, runs⟩ ⟨todo, output', [], e', c', runs'⟩ := by
  simp only [computeResult, runOn_bind_eq_ok_iff, runOn_lift_eq_ok_iff] at h
  obtain ⟨filled, _, ⟨hfilled, rfl⟩, h⟩ := h
  cases filled with
  | true =>
      cases h
      exact ⟨runs, .single (.keep hfilled)⟩
  | false =>
      simp only [Bool.false_eq_true, if_false, value, runOn_bind_eq_ok_iff, runOn_lift_eq_ok_iff,
        runOn_pure_eq_ok_iff, Prod.mk.injEq] at h
      obtain ⟨⟨v, e₂⟩, c₂, ⟨n?, _, ⟨hsource, rfl⟩, h⟩, ⟨old, output₁⟩, _, ⟨hput, rfl⟩, ⟨rfl, rfl⟩, rfl⟩ := h
      cases n? with
      | none =>
          simp only [runOn_bind_eq_ok_iff, runOn_lift_eq_ok_iff, runOn_pure_eq_ok_iff, Prod.mk.injEq] at h
          obtain ⟨_, _, ⟨rfl, rfl⟩, _, _, ⟨hvalue, rfl⟩, ⟨rfl, rfl⟩, rfl⟩ := h
          refine ⟨runs, .single (.store hfilled (fun n hn => ?_) hvalue hput)⟩
          rw [hsource] at hn
          cases hn
      | some n =>
          simp only [runOn_bind_eq_ok_iff, runOn_lift_eq_ok_iff, runOn_pure_eq_ok_iff, Prod.mk.injEq] at h
          obtain ⟨e₂, c₂, hcompute, _, _, ⟨hvalue, rfl⟩, ⟨rfl, rfl⟩, rfl⟩ := h
          have hstore (runs' : List NodeRun) (hn : e₂.isFinished n = true) :
              g.Move ⟨(s, o) :: todo, output, [], e₂, c₂, runs'⟩ ⟨todo, output₁, [], e₂, c₂, runs'⟩ := by
            refine .store hfilled (fun m hm => ?_) hvalue hput
            rw [hsource] at hm
            cases hm
            exact hn
          obtain ⟨⟨runs', hreach⟩, hkept, hstack⟩ := reaches_compute hcompute ((s, o) :: todo) output runs
          cases hn : e.isFinished n with
          | false =>
              exact ⟨runs', .head (.demand hfilled hsource hn)
                (hreach.trans (.single (hstore runs' (hstack n (by simp)))))⟩
          | true =>
              -- A finished node is not looked at again.
              rw [compute_of_finished hn] at hcompute
              obtain ⟨⟨runs', hreach⟩, -⟩ := reaches_compute hcompute ((s, o) :: todo) output runs
              exact ⟨runs', hreach.trans (.single (hstore runs' (hkept n hn)))⟩

theorem reaches_results {limit : Fault} {rounds : Nat} {todo : List (DataSocket × Nat)}
    {output output' : Tuple} {runs : List NodeRun}
    (h : runOn c (todo.foldlM (g.computeResult limit rounds) (output, e)) = (.ok (output', e'), c')) :
    ∃ runs', g.Reaches ⟨todo, output, [], e, c, runs⟩ ⟨[], output', [], e', c', runs'⟩ := by
  induction todo generalizing output e c runs with
  | nil =>
      cases h
      exact ⟨runs, .refl⟩
  | cons r todo ih =>
      rw [List.foldlM_cons, runOn_bind_eq_ok_iff] at h
      obtain ⟨⟨output₁, e₁⟩, c₁, hresult, h⟩ := h
      obtain ⟨runs₁, hfirst⟩ := reaches_computeResult hresult todo runs
      obtain ⟨runs', hrest⟩ := ih h
      exact ⟨runs', hfirst.trans hrest⟩

theorem exists_reaches {limit : Fault} {rounds : Nat} {tuples tuples' : Tuples}
    (h : runOn c (Function.run (g.evaluateWithin limit rounds) tuples) = (.ok tuples', c')) :
    ∃ k, g.Reaches (g.initial tuples c) k ∧ k.Final ∧ k.output = tuples'.output ∧ k.context = c' := by
  rw [run_evaluateWithin, computeResults_eq] at h
  simp only [runOn_bind_eq_ok_iff, runOn_pure_eq_ok_iff] at h
  obtain ⟨_, _, ⟨⟨output', e'⟩, c₁, hresults, rfl, rfl⟩, rfl, rfl⟩ := h
  obtain ⟨runs', hreach⟩ := reaches_results hresults
  exact ⟨_, hreach, ⟨rfl, rfl⟩, rfl, rfl⟩

end FunctionGraph

end Nodeflow
