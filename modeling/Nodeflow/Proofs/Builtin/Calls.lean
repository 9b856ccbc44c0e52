import Nodeflow.Proofs.Builtin.Operation
import Nodeflow.Proofs.FunctionGraph.Calls

/-!
# Calling builtin functions

The bodies of the builtin functions look at their tuples and at nothing else. Called on arguments
of the right types they give the results of their operation.
-/

namespace Nodeflow

namespace BodyEval

variable {α β : Type}

/-- The body works on its tuples and on nothing else. -/
def OnTuples (body : BodyEval α) : Prop :=
  ∃ f : Tuples → Except Fault (α × Tuples), ∀ tuples, body.run tuples = Eval.lift (f tuples)

theorem OnTuples.ignoresContext {body : BodyEval α} (h : body.OnTuples) : body.IgnoresContext := by
  intro tuples
  obtain ⟨f, hf⟩ := h
  rw [hf]
  exact Eval.ignores_lift _

theorem onTuples_pure (a : α) : (pure a : BodyEval α).OnTuples := ⟨fun t => .ok (a, t), fun _ => rfl⟩

theorem onTuples_bind {x : BodyEval α} {k : α → BodyEval β} (hx : x.OnTuples)
    (hk : ∀ a, (k a).OnTuples) : (x >>= k).OnTuples := by
  obtain ⟨f, hf⟩ := hx
  choose g hg using hk
  refine ⟨fun t => f t >>= fun p => g p.1 p.2, fun tuples => ?_⟩
  rw [StateT.run_bind, hf]
  dsimp only
  cases f tuples with
  | error fault => rfl
  | ok p => exact hg p.1 p.2

theorem onTuples_get : (get : BodyEval Tuples).OnTuples := ⟨fun t => .ok (t, t), fun _ => rfl⟩

theorem onTuples_set (tuples : Tuples) : (set tuples : BodyEval PUnit).OnTuples :=
  ⟨fun _ => .ok (⟨⟩, tuples), fun _ => rfl⟩

theorem onTuples_lift (x : Except Fault α) : (lift x).OnTuples :=
  ⟨fun t => x.map (·, t), fun _ => by cases x <;> rfl⟩

theorem runOn_lift_eq_ok {x : Except Fault α} {c c' : Context} {a : α} {tuples left : Tuples}
    (h : Eval.runOn c ((lift x).run tuples) = (.ok (a, left), c')) : x = .ok a := by
  cases x with
  | error fault => cases h
  | ok b =>
      cases h
      rfl

theorem onTuples_takeAs (i : Nat) (type : ValueType) : (takeAs i type).OnTuples := by
  refine onTuples_bind onTuples_get fun tuples => onTuples_bind (onTuples_lift _) ?_
  rintro ⟨v, input⟩
  exact onTuples_bind (onTuples_set _) fun _ => onTuples_pure v

theorem onTuples_takeFloat (i : Nat) : (takeFloat i).OnTuples := by
  refine onTuples_bind (onTuples_takeAs i .float) fun v => ?_
  cases v with
  | float x => exact onTuples_pure x
  | _ => exact onTuples_lift _

theorem onTuples_takeInt (i : Nat) : (takeInt i).OnTuples := by
  refine onTuples_bind (onTuples_takeAs i .int) fun v => ?_
  cases v with
  | int n => exact onTuples_pure n
  | _ => exact onTuples_lift _

theorem onTuples_takeBool (i : Nat) : (takeBool i).OnTuples := by
  refine onTuples_bind (onTuples_takeAs i .bool) fun v => ?_
  cases v with
  | bool b => exact onTuples_pure b
  | _ => exact onTuples_lift _

theorem onTuples_takeVector (i : Nat) : (takeVector i).OnTuples := by
  refine onTuples_bind (onTuples_takeAs i .vector3) fun v => ?_
  cases v with
  | vector3 x y z => exact onTuples_pure (x, y, z)
  | _ => exact onTuples_lift _

theorem onTuples_readList (i : Nat) : (readList i).OnTuples := by
  refine onTuples_bind onTuples_get fun tuples => onTuples_bind (onTuples_lift _) fun v => ?_
  cases v with
  | floatList xs => exact onTuples_pure xs
  | _ => exact onTuples_lift _

theorem onTuples_put (o : Nat) (v : Value) : (put o v).OnTuples := by
  refine onTuples_bind onTuples_get fun tuples => onTuples_bind (onTuples_lift _) ?_
  rintro ⟨old, output⟩
  exact onTuples_set _

end BodyEval

open BodyEval

theorem Builtin.onTuples_switchBody (state : LazyState) : (Builtin.switchBody.entry state).OnTuples := by
  dsimp only [Builtin.switchBody]
  split
  · exact onTuples_bind (onTuples_takeBool 0) fun condition =>
      onTuples_bind (onTuples_lift _) fun state => onTuples_pure _
  · exact onTuples_bind (onTuples_lift _) fun branch => onTuples_bind (onTuples_takeFloat _) fun x =>
      onTuples_bind (onTuples_put 0 _) fun _ => onTuples_pure _

theorem Builtin.ignores_switchBody : Builtin.switchBody.IgnoresContext := fun state =>
  (Builtin.onTuples_switchBody state).ignoresContext

theorem LazyState.entryCount_of_poke {s s' : LazyState} {i : Nat} {byte : UInt8} (h : s.poke i byte = .ok s') :
    s'.entryCount = s.entryCount := by
  unfold LazyState.poke at h
  split at h
  · cases h
    rfl
  · cases h

/-- The first entry of a switch notes its branch and requests it, any other one finishes the call. -/
theorem Builtin.leavesCount_switchBody : Builtin.switchBody.LeavesCount := by
  intro state tuples c after left c' hrun
  dsimp only [Builtin.switchBody] at hrun
  split at hrun
  · simp only [StateT.run_bind, Eval.runOn_bind_eq_ok_iff, StateT.run_pure, Eval.runOn_pure_eq_ok_iff] at hrun
    obtain ⟨_, _, -, ⟨noted, _⟩, _, hnoted, hafter, -⟩ := hrun
    have hcount : noted.entryCount = state.entryCount := LazyState.entryCount_of_poke (runOn_lift_eq_ok hnoted)
    cases hafter
    exact hcount
  · simp only [StateT.run_bind, Eval.runOn_bind_eq_ok_iff, StateT.run_pure, Eval.runOn_pure_eq_ok_iff] at hrun
    obtain ⟨_, _, -, _, _, -, _, _, -, hafter, -⟩ := hrun
    cases hafter
    rfl

namespace NodeEntry

variable {entry : NodeEntry} {input : Nat → Except Fault Value}

theorem call_eq_ok {body : BodyEval Unit} {t : Tuple} {tuples : Tuples} {ys : List Value}
    (hp : preset input (List.range entry.inputCount) entry.function.newTuples.input = .ok t)
    (hc : (entry.function.call body { entry.function.newTuples with input := t }).result = .ok tuples)
    (hy : entry.outputValues tuples.output = .ok ys) : entry.call body input = .ok ys := by
  unfold call
  dsimp only
  rw [hp, ok_bind, hc, ok_bind, hy]

end NodeEntry

namespace Builtin

open NodeEntry

variable (source : Option SourceInfo) (i o : Nat) {input : Nat → Except Fault Value}

theorem evaluate_floatArithmetic (name : String) (op : BinaryOp) {a b : Binary32}
    (ha : input 0 = .ok (.float a)) (hb : input 1 = .ok (.float b)) :
    (NodeEntry.mk (floatArithmetic name op) source i o).evaluate input = .ok [.float (op.apply a b)] := by
  refine call_eq_ok (t := ⟨#[⟨⟨"A", .float⟩, some (.float a)⟩, ⟨⟨"B", .float⟩, some (.float b)⟩]⟩) ?_
    (by with_unfolding_all rfl) (by with_unfolding_all rfl)
  change preset input [0, 1] _ = _
  simp only [preset_cons, ha, hb, ok_bind]
  with_unfolding_all rfl

theorem evaluate_combineVector {x y z : Binary32} (hx : input 0 = .ok (.float x))
    (hy : input 1 = .ok (.float y)) (hz : input 2 = .ok (.float z)) :
    (NodeEntry.mk combineVector source i o).evaluate input = .ok [.vector3 x y z] := by
  refine call_eq_ok (t := ⟨#[⟨⟨"X", .float⟩, some (.float x)⟩, ⟨⟨"Y", .float⟩, some (.float y)⟩,
    ⟨⟨"Z", .float⟩, some (.float z)⟩]⟩) ?_ (by with_unfolding_all rfl) (by with_unfolding_all rfl)
  change preset input [0, 1, 2] _ = _
  simp only [preset_cons, hx, hy, hz, ok_bind]
  with_unfolding_all rfl

theorem evaluate_separateVector {x y z : Binary32} (hv : input 0 = .ok (.vector3 x y z)) :
    (NodeEntry.mk separateVector source i o).evaluate input = .ok [.float x, .float y, .float z] := by
  refine call_eq_ok (t := ⟨#[⟨⟨"Vector", .vector3⟩, some (.vector3 x y z)⟩]⟩) ?_
    (by with_unfolding_all rfl) (by with_unfolding_all rfl)
  change preset input [0] _ = _
  simp only [preset_cons, hv, ok_bind]
  with_unfolding_all rfl

theorem evaluate_floatListSum {xs : List Binary32} (hl : input 0 = .ok (.floatList xs)) :
    (NodeEntry.mk floatListSum source i o).evaluate input = .ok [.float (.sum xs)] := by
  refine call_eq_ok (t := ⟨#[⟨⟨"List", .floatList⟩, some (.floatList xs)⟩]⟩) ?_
    (by with_unfolding_all rfl) (by with_unfolding_all rfl)
  change preset input [0] _ = _
  simp only [preset_cons, hl, ok_bind]
  with_unfolding_all rfl

theorem evaluate_floatRange {amount : Int32} {start step : Binary32} (hn : input 0 = .ok (.int amount))
    (ha : input 1 = .ok (.float start)) (hd : input 2 = .ok (.float step)) :
    (NodeEntry.mk floatRange source i o).evaluate input =
      .ok [.floatList (Nodeflow.floatRange amount start step)] := by
  refine call_eq_ok (t := ⟨#[⟨⟨"Amount", .int⟩, some (.int amount)⟩, ⟨⟨"Start", .float⟩, some (.float start)⟩,
    ⟨⟨"Step", .float⟩, some (.float step)⟩]⟩) ?_ (by with_unfolding_all rfl) (by with_unfolding_all rfl)
  change preset input [0, 1, 2] _ = _
  simp only [preset_cons, hn, ha, hd, ok_bind]
  with_unfolding_all rfl

theorem evaluate_intToFloat {n : Int32} (hn : input 0 = .ok (.int n)) :
    (NodeEntry.mk intToFloat source i o).evaluate input = .ok [.float (.ofInt n.toInt)] := by
  refine call_eq_ok (t := ⟨#[⟨⟨"Int", .int⟩, some (.int n)⟩]⟩) ?_
    (by with_unfolding_all rfl) (by with_unfolding_all rfl)
  change preset input [0] _ = _
  simp only [preset_cons, hn, ok_bind]
  with_unfolding_all rfl

theorem evaluate_floatToInt {x : Binary32} (hx : input 0 = .ok (.float x)) :
    (NodeEntry.mk floatToInt source i o).evaluate input = .ok [.int x.toInt32] := by
  refine call_eq_ok (t := ⟨#[⟨⟨"Float", .float⟩, some (.float x)⟩]⟩) ?_
    (by with_unfolding_all rfl) (by with_unfolding_all rfl)
  change preset input [0] _ = _
  simp only [preset_cons, hx, ok_bind]
  with_unfolding_all rfl

theorem evaluate_constant (value : Value) :
    (NodeEntry.mk (constant value) source i o).evaluate input = .ok [value] := by
  -- The type of the value has to be known for the output to take it.
  cases value <;>
    exact call_eq_ok (t := ⟨#[]⟩) (by with_unfolding_all rfl) (by with_unfolding_all rfl) (by with_unfolding_all rfl)

def switchInput (condition ifTrue ifFalse : Option Value) : Tuple :=
  ⟨#[⟨⟨"Condition", .bool⟩, condition⟩, ⟨⟨"True", .float⟩, ifTrue⟩, ⟨⟨"False", .float⟩, ifFalse⟩]⟩

/-- A switch asks for the branch that its condition chooses, and hands its value on. -/
theorem evaluate_switchFloat {condition : Bool} {a b : Binary32} (hc : input 0 = .ok (.bool condition))
    (ha : input 1 = .ok (.float a)) (hb : input 2 = .ok (.float b)) :
    (NodeEntry.mk switchFloat source i o).evaluate input =
      .ok [.float (if condition then a else b)] := by
  change callLazy _ switchBody _ = _
  rw [callLazy_eq_complete ignores_switchBody, complete_eq ignores_switchBody]
  have hfirst : preset input (opening ⟨switchFloat, source, i, o⟩ switchBody).needed
      (opening ⟨switchFloat, source, i, o⟩ switchBody).tuples.input =
        .ok (switchInput (some (.bool condition)) none none) := by
    change preset input [0] _ = _
    simp only [preset_cons, hc, ok_bind]
    with_unfolding_all rfl
  rw [nextOf, hfirst, ok_bind]
  cases condition with
  | true =>
      have hsecond : preset input [1] (switchInput none none none) =
          .ok (switchInput none (some (.float a)) none) := by
        simp only [preset_cons, ha, ok_bind]
        with_unfolding_all rfl
      change complete ⟨switchFloat, source, i, o⟩ switchBody input
        ⟨⟨switchInput none none none, Tuple.new switchFloat.outputs⟩, some ⟨1, false, #[1], []⟩, [1]⟩ = _
      rw [complete_eq ignores_switchBody, nextOf, hsecond, ok_bind]
      with_unfolding_all rfl
  | false =>
      have hsecond : preset input [2] (switchInput none none none) =
          .ok (switchInput none none (some (.float b))) := by
        simp only [preset_cons, hb, ok_bind]
        with_unfolding_all rfl
      change complete ⟨switchFloat, source, i, o⟩ switchBody input
        ⟨⟨switchInput none none none, Tuple.new switchFloat.outputs⟩, some ⟨1, false, #[2], []⟩, [2]⟩ = _
      rw [complete_eq ignores_switchBody, nextOf, hsecond, ok_bind]
      with_unfolding_all rfl

end Builtin

namespace Operation

theorem onTuples_tupleCall (op : Operation) {body : BodyEval Unit}
    (h : op.function.tupleCall? = some body) : body.OnTuples := by
  cases op with
  | arithmetic name op =>
      cases h
      exact onTuples_bind (onTuples_takeFloat 0) fun a => onTuples_bind (onTuples_takeFloat 1) fun b =>
        onTuples_put 0 _
  | combineVector =>
      cases h
      exact onTuples_bind (onTuples_takeFloat 0) fun x => onTuples_bind (onTuples_takeFloat 1) fun y =>
        onTuples_bind (onTuples_takeFloat 2) fun z => onTuples_put 0 _
  | separateVector =>
      cases h
      exact onTuples_bind (onTuples_takeVector 0) fun v => onTuples_bind (onTuples_put 0 _) fun _ =>
        onTuples_bind (onTuples_put 1 _) fun _ => onTuples_put 2 _
  | switch => cases h
  | listSum =>
      cases h
      exact onTuples_bind (onTuples_readList 0) fun xs => onTuples_put 0 _
  | range =>
      cases h
      exact onTuples_bind (onTuples_takeInt 0) fun n => onTuples_bind (onTuples_takeFloat 1) fun a =>
        onTuples_bind (onTuples_takeFloat 2) fun d => onTuples_put 0 _
  | intToFloat =>
      cases h
      exact onTuples_bind (onTuples_takeInt 0) fun n => onTuples_put 0 _
  | floatToInt =>
      cases h
      exact onTuples_bind (onTuples_takeFloat 0) fun x => onTuples_put 0 _
  | constant value =>
      cases h
      exact onTuples_put 0 _

theorem onTuples_lazyTupleCall (op : Operation) {body : LazyBody}
    (h : op.function.lazyTupleCall? = some body) (state : LazyState) : (body.entry state).OnTuples := by
  cases op with
  | switch =>
      cases h
      exact Builtin.onTuples_switchBody state
  | _ => cases h

theorem ignoresContext (op : Operation) : op.function.IgnoresContext :=
  ⟨fun _ h => (op.onTuples_tupleCall h).ignoresContext,
    fun _ h state => (op.onTuples_lazyTupleCall h state).ignoresContext⟩

theorem leavesCount (op : Operation) {body : LazyBody} (h : op.function.lazyTupleCall? = some body) :
    body.LeavesCount := by
  cases op with
  | switch =>
      cases h
      exact Builtin.leavesCount_switchBody
  | _ => cases h

variable {entry : NodeEntry} {op : Operation} {input : Nat → Except Fault Value} {xs ys : List Value}

theorem evaluate_eq_ok (hf : entry.function = op.function) (h : op.apply xs = some ys)
    (hin : ∀ (i : Nat) (v : Value), xs[i]? = some v → input i = .ok v) : entry.evaluate input = .ok ys := by
  obtain ⟨f, source, i, o⟩ := entry
  obtain rfl : f = op.function := hf
  unfold apply at h
  split at h
  all_goals cases h
  · exact Builtin.evaluate_floatArithmetic source i o _ _ (hin 0 _ rfl) (hin 1 _ rfl)
  · exact Builtin.evaluate_combineVector source i o (hin 0 _ rfl) (hin 1 _ rfl) (hin 2 _ rfl)
  · exact Builtin.evaluate_separateVector source i o (hin 0 _ rfl)
  · exact Builtin.evaluate_switchFloat source i o (hin 0 _ rfl) (hin 1 _ rfl) (hin 2 _ rfl)
  · exact Builtin.evaluate_floatListSum source i o (hin 0 _ rfl)
  · exact Builtin.evaluate_floatRange source i o (hin 0 _ rfl) (hin 1 _ rfl) (hin 2 _ rfl)
  · exact Builtin.evaluate_intToFloat source i o (hin 0 _ rfl)
  · exact Builtin.evaluate_floatToInt source i o (hin 0 _ rfl)
  · exact Builtin.evaluate_constant source i o _

end Operation

end Nodeflow
