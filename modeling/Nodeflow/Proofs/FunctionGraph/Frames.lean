import Nodeflow.Proofs.Function.Frames
import Nodeflow.Proofs.FunctionGraph.Interpreter

/-!
# The frames of an evaluation

A node's body runs below the frames that its graph is evaluated in, its own frame, and the name of its
function. To observe this, the graph is put under watch: each body of a node first compares the frames
with these. As long as the bodies are balanced, the evaluation under watch goes step by step like the
evaluation without, so that no watch ever raises its alarm.
-/

namespace Nodeflow

open Eval

/-- The node under watch: its bodies expect the outer frames, its own one and the name of its function. -/
def NodeEntry.watched (outer : List Frame) (alarm : Fault) (n : NodeEntry) : NodeEntry :=
  { n with function := n.function.watched (outer ++ [n.frame, .text n.function.name]) alarm }

namespace FunctionGraph

/-- The graph with all of its nodes under watch. -/
def watched (outer : List Frame) (alarm : Fault) (g : FunctionGraph) : FunctionGraph :=
  { g with graph := { g.graph with nodes := g.graph.nodes.map (NodeEntry.watched outer alarm) } }

section

variable (outer : List Frame) (alarm : Fault) (g : FunctionGraph)

theorem node_watched (n : DataNode) : (g.watched outer alarm).graph.node n =
    (g.graph.node n).map (NodeEntry.watched outer alarm) := by
  simp only [Wiring.node, elementAt, watched, Array.getElem?_map, Array.size_map]
  cases g.graph.nodes[n.index]? <;> rfl

theorem inputSocket_watched (n : DataNode) (position : Nat) :
    (g.watched outer alarm).graph.inputSocket n position = g.graph.inputSocket n position := by
  rw [Wiring.inputSocket, Wiring.inputSocket, node_watched]
  cases g.graph.node n <;> rfl

theorem parameter_watched (s : DataSocket) :
    (g.watched outer alarm).graph.parameter s = g.graph.parameter s := by
  have hplace : (g.watched outer alarm).graph.place s = g.graph.place s := by cases s <;> rfl
  rw [Wiring.parameter, Wiring.parameter, hplace]
  congr 1
  funext place
  dsimp only
  rw [Wiring.function, Wiring.function, node_watched]
  cases g.graph.node place.1 <;> rfl

theorem source_watched (s : DataSocket) : (g.watched outer alarm).source s = g.source s := rfl

theorem sourceNode?_watched (s : DataSocket) :
    (g.watched outer alarm).sourceNode? s = g.sourceNode? s := rfl

theorem available_watched (e : Evaluation) (s : DataSocket) :
    (g.watched outer alarm).available e s = g.available e s := by
  simp only [available, source_watched, parameter_watched]
  rfl

theorem neededInputs_watched (e : Evaluation) (n : DataNode) (entry : NodeEntry) :
    neededInputs e n (entry.watched outer alarm) = neededInputs e n entry := by
  have ht := entry.function.tupleCall?_watched (outer ++ [entry.frame, .text entry.function.name]) alarm
  have hb := entry.function.lazyTupleCall?_watched (outer ++ [entry.frame, .text entry.function.name]) alarm
  unfold neededInputs NodeEntry.watched
  dsimp only
  rw [ht, hb]
  cases entry.function.tupleCall? <;> cases entry.function.lazyTupleCall? <;> rfl

theorem pendingNode?_watched (e : Evaluation) (n : DataNode) (position : Nat) :
    (g.watched outer alarm).pendingNode? e n position = g.pendingNode? e n position := by
  simp only [pendingNode?, inputSocket_watched, source_watched]
  rfl

theorem pendingNodes_watched (e : Evaluation) (n : DataNode) :
    (g.watched outer alarm).pendingNodes e n = g.pendingNodes e n := by
  have hpending : (g.watched outer alarm).pendingNode? e n = g.pendingNode? e n :=
    funext (pendingNode?_watched outer alarm g e n)
  rw [pendingNodes, pendingNodes, node_watched, hpending]
  cases g.graph.node n with
  | error fault => rfl
  | ok entry =>
      change neededInputs e n (entry.watched outer alarm) >>= _ = neededInputs e n entry >>= _
      rw [neededInputs_watched]

theorem provideInputs_watched (e : Evaluation) (n : DataNode) (positions : List Nat) (input : Tuple) :
    (g.watched outer alarm).provideInputs e n positions input = g.provideInputs e n positions input := by
  simp only [provideInputs, inputSocket_watched, available_watched]

theorem start_watched (arguments : List (Option Value)) :
    Evaluation.start (g.watched outer alarm) arguments = .start g arguments := by
  simp [Evaluation.start, watched]

theorem rounds_watched : (g.watched outer alarm).rounds = g.rounds := by
  simp [rounds, roundsFor, watched]

end

variable {g : FunctionGraph} {stack : List Frame} {entry : NodeEntry}

theorem agreeOn_callNode {body : BodyEval Unit} (hb : body.Balanced) (alarm : Fault) (e : Evaluation)
    (n : DataNode) :
    AgreeOn stack
      ((g.watched stack.reverse alarm).callNode e n (entry.watched stack.reverse alarm)
        (body.watched (stack.reverse ++ [entry.frame, .text entry.function.name]) alarm))
      (g.callNode e n entry body) := by
  unfold callNode
  dsimp only
  rw [provideInputs_watched]
  refine (agreeOn_lift _).bind fun input => ?_
  exact (Function.agreeOn_callIn_watched hb entry.frame alarm _).bind fun _ => agreeOn_lift _

theorem agreeOn_enterNode {body : LazyBody} (hb : body.Balanced) (alarm : Fault) (e : Evaluation)
    (n : DataNode) :
    AgreeOn stack
      ((g.watched stack.reverse alarm).enterNode e n (entry.watched stack.reverse alarm)
        (body.watched (stack.reverse ++ [entry.frame, .text entry.function.name]) alarm))
      (g.enterNode e n entry body) := by
  rw [enterNode_eq, enterNode_eq, provideInputs_watched]
  refine (agreeOn_lift _).bind fun input => (agreeOn_lift _).bind fun state => ?_
  refine (Function.agreeOn_nextLazy_watched hb entry.frame alarm state _).bind ?_
  rintro ⟨needed, state, tuples⟩
  dsimp only
  split
  · exact (entry.function.agreeOn_finishLazy state tuples).bind fun _ => agreeOn_lift _
  · exact agreeOn_pure _

section

variable (hg : ∀ entry ∈ g.graph.nodes, entry.function.Balanced) (alarm : Fault)
include hg

theorem agreeOn_step (e : Evaluation) (n : DataNode) :
    AgreeOn stack ((g.watched stack.reverse alarm).step e n) (g.step e n) := by
  have hwatched := g.node_watched stack.reverse alarm n
  cases hn : g.graph.node n with
  | error fault =>
      rw [step, step, hwatched, hn]
      exact agreeOn_throw fault
  | ok entry =>
      have hb : entry.function.Balanced := hg entry (Array.mem_of_getElem? (Wiring.node_eq_ok_iff.mp hn))
      have ht' := entry.function.tupleCall?_watched
        (stack.reverse ++ [entry.frame, .text entry.function.name]) alarm
      have hl' := entry.function.lazyTupleCall?_watched
        (stack.reverse ++ [entry.frame, .text entry.function.name]) alarm
      rw [hn] at hwatched
      cases ht : entry.function.tupleCall? with
      | some body =>
          rw [ht] at ht'
          rw [step_eq_callNode hwatched ht', step_eq_callNode hn ht]
          exact agreeOn_callNode (hb.call ht) alarm e n
      | none =>
          rw [ht] at ht'
          cases hl : entry.function.lazyTupleCall? with
          | some body =>
              rw [hl] at hl'
              rw [step_eq_enterNode hwatched ht' hl', step_eq_enterNode hn ht hl]
              exact agreeOn_enterNode (hb.entry ht hl) alarm e n
          | none =>
              rw [hl] at hl'
              rw [step_eq_throw hwatched ht' hl', step_eq_throw hn ht hl]
              exact agreeOn_throw _

theorem agreeOn_compute (limit : Fault) (rounds : Nat) (nodes : List DataNode) (e : Evaluation) :
    AgreeOn stack ((g.watched stack.reverse alarm).compute limit rounds nodes e)
      (g.compute limit rounds nodes e) := by
  -- A step changes what is finished and suspended, so the nodes and the evaluation vary.
  induction rounds generalizing nodes e with
  | zero => exact agreeOn_throw limit
  | succ rounds ih =>
      rw [compute, compute]
      cases nodes.dropWhile e.isFinished with
      | nil => exact agreeOn_pure e
      | cons n rest =>
          dsimp only
          rw [pendingNodes_watched]
          refine (agreeOn_lift _).bind fun pending => ?_
          split
          · exact (agreeOn_step hg alarm e n).bind fun e => ih (n :: rest) e
          · exact ih (pending.reverse ++ n :: rest) e

theorem agreeOn_value (limit : Fault) (rounds : Nat) (e : Evaluation) (s : DataSocket) :
    AgreeOn stack ((g.watched stack.reverse alarm).value limit rounds e s)
      (g.value limit rounds e s) := by
  unfold value
  rw [sourceNode?_watched]
  simp only [available_watched]
  have hvalue (e : Evaluation) : AgreeOn stack (lift (g.available e s) >>= fun v => pure (v, e))
      (lift (g.available e s) >>= fun v => pure (v, e)) :=
    (agreeOn_lift _).bind fun v => agreeOn_pure (v, e)
  refine (agreeOn_lift _).bind fun n? => ?_
  cases n? with
  | none => exact (agreeOn_pure e).bind hvalue
  | some n => exact (agreeOn_compute hg alarm limit rounds [n] e).bind hvalue

theorem agreeOn_computeResult (limit : Fault) (rounds : Nat) (x : Tuple × Evaluation)
    (r : DataSocket × Nat) :
    AgreeOn stack ((g.watched stack.reverse alarm).computeResult limit rounds x r)
      (g.computeResult limit rounds x r) := by
  unfold computeResult
  refine (agreeOn_lift _).bind fun filled => ?_
  split
  · exact agreeOn_pure x
  · exact (agreeOn_value hg alarm limit rounds x.2 r.1).bind fun _ =>
      (agreeOn_lift _).bind fun _ => agreeOn_pure _

theorem agreeOn_evaluateWithin (limit : Fault) (rounds : Nat) (tuples : Tuples) :
    AgreeOn stack (((g.watched stack.reverse alarm).evaluateWithin limit rounds).run tuples)
      ((g.evaluateWithin limit rounds).run tuples) := by
  have hrun (g : FunctionGraph) : (g.evaluateWithin limit rounds).run tuples =
      g.computeResults limit rounds (.start g tuples.input.contents) tuples.output >>= fun output =>
        pure ((), ⟨tuples.input.clear, output⟩) := by
    simp [evaluateWithin]
  rw [hrun, hrun, start_watched, computeResults_eq, computeResults_eq]
  refine AgreeOn.bind (AgreeOn.bind ?_ fun x => agreeOn_pure x.1) fun output => agreeOn_pure _
  exact agreeOn_foldlM (agreeOn_computeResult hg alarm limit rounds) _ _

end

/-- The evaluation of a graph of balanced nodes is balanced itself, so that graphs can be nested. -/
theorem balanced_evaluateWithin (hg : ∀ entry ∈ g.graph.nodes, entry.function.Balanced) (limit : Fault)
    (rounds : Nat) : (g.evaluateWithin limit rounds).Balanced := fun tuples =>
  balanced_of_agreeOn fun _ => agreeOn_evaluateWithin hg .counterOverflow limit rounds tuples

end FunctionGraph

theorem BodyEval.OnTuples.balanced {α : Type} {body : BodyEval α} (h : body.OnTuples) : body.Balanced := by
  obtain ⟨f, hf⟩ := h
  intro tuples
  rw [hf]
  exact balanced_of_agreeOn fun _ => agreeOn_lift (f tuples)

theorem Operation.balanced (op : Operation) : op.function.Balanced :=
  ⟨fun _ h => (op.onTuples_tupleCall h).balanced,
    fun _ _ h state => (op.onTuples_lazyTupleCall h state).balanced⟩

/--
A function whose bodies are balanced, or that evaluates a graph of such functions, nested to any
depth.
-/
inductive Function.Orderly : Function → Prop
  | plain {f : Function} (hf : f.Balanced) : Orderly f
  | graph {f : Function} {g : FunctionGraph} {limit : Fault} {rounds : Nat}
      (hg : f.tupleCall? = some (g.evaluateWithin limit rounds))
      (hnodes : ∀ entry ∈ g.graph.nodes, Orderly entry.function) : Orderly f

theorem Function.Orderly.balanced {f : Function} (h : f.Orderly) : f.Balanced := by
  induction h with
  | plain hf => exact hf
  | @graph f g limit rounds hg _ ih =>
      refine ⟨fun body hbody => ?_, fun hnone => ?_⟩
      · obtain rfl := Option.some.inj (hg.symm.trans hbody)
        exact FunctionGraph.balanced_evaluateWithin ih limit rounds
      · rw [hg] at hnone
        cases hnone

namespace FunctionGraph

variable {g : FunctionGraph}

/--
In a call of a function that evaluates a graph of orderly nodes, on whatever stack of frames, each run
or entry of a node's body finds the frames of that stack, the name of the function, the frame of the
node and the name of the node's function: to expect these makes no difference, whatever the alarm is.
A call that returns leaves the stack as it found it. The call may be that of a node inside a larger
evaluation.
-/
theorem call_keeps_frames (hg : ∀ entry ∈ g.graph.nodes, entry.function.Orderly) (f : Function)
    (tuples : Tuples) (c : Context) (limit : Fault) (rounds : Nat) :
    (∀ alarm, runOn c (f.call ((g.watched (c.frames ++ [.text f.name]) alarm).evaluateWithin limit rounds) tuples) =
        runOn c (f.call (g.evaluateWithin limit rounds) tuples)) ∧
      ∀ results c', runOn c (f.call (g.evaluateWithin limit rounds) tuples) = (.ok results, c') →
        c'.stack = c.stack := by
  have hbalanced (entry : NodeEntry) (h : entry ∈ g.graph.nodes) := (hg entry h).balanced
  have hcall (alarm : Fault) : AgreeOn c.stack
      (f.call ((g.watched (c.frames ++ [.text f.name]) alarm).evaluateWithin limit rounds) tuples)
      (f.call (g.evaluateWithin limit rounds) tuples) := by
    have hevaluate : AgreeOn (.text f.name :: c.stack)
        (((g.watched (.text f.name :: c.stack).reverse alarm).evaluateWithin limit rounds).run tuples)
        ((g.evaluateWithin limit rounds).run tuples) := agreeOn_evaluateWithin hbalanced alarm limit rounds tuples
    rw [List.reverse_cons] at hevaluate
    exact Function.agreeOn_call tuples (hevaluate.bind fun _ => agreeOn_pure _)
  exact ⟨fun alarm => (hcall alarm rfl).1, fun _ _ h => (hcall .counterOverflow rfl).2 h⟩

/-! ## A graph inside a graph -/

/-- The function that evaluates the graph with a switch. -/
def chooserFunction : Function where
  name := "Choosing"
  inputs := #[⟨"c", .bool⟩, ⟨"a", .float⟩, ⟨"b", .float⟩]
  outputs := #[⟨"Result", .float⟩]
  bodies := [.tupleCall chooser.evaluate]

/-- A switch between an argument and the result of a switch inside another graph. -/
def nestedGraph : DataGraph where
  nodes := #[⟨Builtin.functionInput [⟨"c", .bool⟩, ⟨"a", .float⟩, ⟨"b", .float⟩], none, 0, 0⟩,
    ⟨chooserFunction, some ⟨"Tree", "Choice"⟩, 0, 3⟩, ⟨Builtin.switchFloat, none, 3, 4⟩]
  inputs := #[⟨⟨1⟩, 0, ⟨0⟩⟩, ⟨⟨1⟩, 1, ⟨1⟩⟩, ⟨⟨1⟩, 2, ⟨2⟩⟩,
    ⟨⟨2⟩, 0, ⟨0⟩⟩, ⟨⟨2⟩, 1, ⟨3⟩⟩, ⟨⟨2⟩, 2, ⟨2⟩⟩]
  outputs := #[⟨⟨0⟩, 0, [⟨0⟩, ⟨3⟩]⟩, ⟨⟨0⟩, 1, [⟨1⟩]⟩, ⟨⟨0⟩, 2, [⟨2⟩, ⟨5⟩]⟩, ⟨⟨1⟩, 0, [⟨4⟩]⟩,
    ⟨⟨2⟩, 0, []⟩]

def nestedChooser : FunctionGraph :=
  ⟨nestedGraph, [.output ⟨0⟩, .output ⟨1⟩, .output ⟨2⟩], [.output ⟨4⟩]⟩

def allGiven : Tuples where
  input := ⟨#[⟨⟨"c", .bool⟩, some (.bool true)⟩, ⟨⟨"a", .float⟩, some (.float .one)⟩,
    ⟨⟨"b", .float⟩, some (.float .one)⟩]⟩
  output := Tuple.new #[⟨"Result", .float⟩]

theorem orderly_nestedChooser : ∀ entry ∈ nestedChooser.graph.nodes, entry.function.Orderly := by
  have hinput : (Builtin.functionInput [⟨"c", .bool⟩, ⟨"a", .float⟩, ⟨"b", .float⟩]).Orderly :=
    .plain ⟨fun _ h => (by cases h), fun _ _ h => (by cases h)⟩
  have hswitch : Builtin.switchFloat.Orderly := .plain Operation.switch.balanced
  intro entry h
  simp only [nestedChooser, nestedGraph, List.mem_toArray, List.mem_cons, List.not_mem_nil, or_false] at h
  rcases h with rfl | rfl | rfl
  · exact hinput
  · refine .graph (g := chooser) rfl fun entry h => ?_
    simp only [chooser, chooserGraph, List.mem_toArray, List.mem_cons, List.not_mem_nil, or_false] at h
    rcases h with rfl | rfl
    · exact hinput
    · exact hswitch
  · exact hswitch

def onMain : Context := .onStack [.text "Main"]

theorem call_keeps_frames_nestedChooser :
    (∃ results c', runOn onMain (chooserFunction.call nestedChooser.evaluate allGiven) =
      (.ok results, c') ∧ c'.frames = [.text "Main"]) ∧
    ∀ alarm, runOn onMain (chooserFunction.call
        (nestedChooser.watched [.text "Main", .text "Choosing"] alarm).evaluate allGiven) =
      runOn onMain (chooserFunction.call nestedChooser.evaluate allGiven) := by
  obtain ⟨hwatch, hstack⟩ := call_keeps_frames orderly_nestedChooser chooserFunction allGiven onMain
    .counterOverflow nestedChooser.rounds
  have hreturns : (runOn onMain
      (chooserFunction.call nestedChooser.evaluate allGiven)).1.toOption.isSome = true := by
    decide +kernel
  constructor
  · rcases hrun : runOn onMain (chooserFunction.call nestedChooser.evaluate allGiven) with ⟨_ | results, c'⟩
    · rw [hrun] at hreturns
      cases hreturns
    · exact ⟨results, c', rfl, congrArg List.reverse (hstack results c' hrun)⟩
  · intro alarm
    rw [evaluate, rounds_watched]
    exact hwatch alarm

/-- To expect other frames ends in the alarm. -/
example : (runOn onMain (chooserFunction.call
    (nestedChooser.watched [.text "Main"] .counterOverflow).evaluate allGiven)).1.toOption.isSome = false := by
  decide +kernel

end FunctionGraph

end Nodeflow
