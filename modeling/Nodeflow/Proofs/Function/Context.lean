import Nodeflow.Function.TupleCall
import Nodeflow.Function.LazyCall
import Nodeflow.Proofs.Fault

/-!
# Computations that ignore their context

A computation whose result does not depend on the context it runs in can be replaced by its result.
-/

namespace Nodeflow

namespace Eval

variable {α β : Type} {c c' : Context}

theorem runOn_bind (c : Context) (x : Eval α) (f : α → Eval β) :
    runOn c (x >>= f) = match runOn c x with
      | (.ok a, c') => runOn c' (f a)
      | (.error fault, c') => (.error fault, c') := by
  simp only [runOn, ExceptT.run_bind, StateT.run_bind]
  rcases StateT.run (ExceptT.run x) c with ⟨_ | _, _⟩ <;> rfl

@[simp] theorem runOn_pure (c : Context) (a : α) : runOn c (pure a : Eval α) = (.ok a, c) := rfl

@[simp] theorem runOn_throw (c : Context) (fault : Fault) :
    runOn c (throw fault : Eval α) = (.error fault, c) := rfl

@[simp] theorem runOn_lift (c : Context) (x : Except Fault α) : runOn c (lift x) = (x, c) := by
  cases x <;> rfl

theorem runOn_bind_eq_ok_iff {x : Eval α} {f : α → Eval β} {b : β} :
    runOn c (x >>= f) = (.ok b, c') ↔
      ∃ a c₁, runOn c x = (.ok a, c₁) ∧ runOn c₁ (f a) = (.ok b, c') := by
  rw [runOn_bind]
  rcases runOn c x with ⟨_ | a, c₁⟩
  · simp
  · constructor
    · exact fun h => ⟨a, c₁, rfl, h⟩
    · rintro ⟨_, _, h, hf⟩
      cases h
      exact hf

theorem runOn_lift_eq_ok_iff {x : Except Fault α} {a : α} :
    runOn c (lift x) = (.ok a, c') ↔ x = .ok a ∧ c = c' := by
  rw [runOn_lift, Prod.mk.injEq]

theorem runOn_pure_eq_ok_iff {a b : α} : runOn c (pure a) = (.ok b, c') ↔ a = b ∧ c = c' := by
  rw [runOn_pure, Prod.mk.injEq, Except.ok.injEq]

theorem runOn_within_eq_ok_iff {frame : Frame} {x : Eval α} {a : α} :
    runOn c (within frame x) = (.ok a, c') ↔
      ∃ c₁, runOn (c.push frame) x = (.ok a, c₁) ∧ c₁.pop.2 = c' := by
  rw [within, runOn_bind_eq_ok_iff]
  simp only [runOn_bind_eq_ok_iff, runOn_pure_eq_ok_iff]
  constructor
  · rintro ⟨_, _, hpush, a', c₁, hx, _, _, hpop, rfl, rfl⟩
    cases hpush
    cases hpop
    exact ⟨c₁, hx, rfl⟩
  · rintro ⟨c₁, hx, rfl⟩
    exact ⟨(), c.push frame, rfl, a, c₁, hx, (), c₁.pop.2, rfl, rfl, rfl⟩

theorem lift_ok_bind (a : α) (f : α → Eval β) : (lift (.ok a) >>= f) = f a := rfl

/-- The result of a computation in an empty context. -/
def result (x : Eval α) : Except Fault α := (runOn {} x).1

/-- The result is the same in every context. -/
def IgnoresContext (x : Eval α) : Prop := ∀ c, (runOn c x).1 = x.result

@[simp] theorem result_pure (a : α) : (pure a : Eval α).result = .ok a := rfl

@[simp] theorem result_throw (fault : Fault) : (throw fault : Eval α).result = .error fault := rfl

@[simp] theorem result_lift (x : Except Fault α) : (lift x).result = x := by
  simp [result]

theorem ignores_pure (a : α) : IgnoresContext (pure a) := fun _ => rfl

theorem ignores_throw (fault : Fault) : IgnoresContext (throw fault : Eval α) := fun _ => rfl

theorem ignores_lift (x : Except Fault α) : IgnoresContext (lift x) := fun c => by simp

theorem fst_runOn_bind {x : Eval α} {f : α → Eval β} (hf : ∀ a, IgnoresContext (f a)) (c : Context) :
    (runOn c (x >>= f)).1 = (runOn c x).1 >>= fun a => (f a).result := by
  rw [runOn_bind]
  rcases runOn c x with ⟨_ | a, c'⟩
  · rfl
  · exact hf a c'

theorem result_bind {x : Eval α} {f : α → Eval β} (hf : ∀ a, IgnoresContext (f a)) :
    (x >>= f).result = x.result >>= fun a => (f a).result := fst_runOn_bind hf {}

theorem ignores_bind {x : Eval α} {f : α → Eval β} (hx : IgnoresContext x)
    (hf : ∀ a, IgnoresContext (f a)) : IgnoresContext (x >>= f) := fun c => by
  rw [fst_runOn_bind hf, result_bind hf, hx c]

theorem runOn_within (frame : Frame) (x : Eval α) (c : Context) :
    runOn c (within frame x) = match runOn (c.push frame) x with
      | (.ok a, c') => (.ok a, c'.pop.2)
      | (.error fault, c') => (.error fault, c') := by
  have hpush : runOn c (push frame) = (.ok (), c.push frame) := rfl
  rw [within, runOn_bind, hpush]
  simp only [runOn_bind]
  rcases runOn (c.push frame) x with ⟨_ | a, c'⟩ <;> rfl

theorem fst_runOn_within (frame : Frame) (x : Eval α) (c : Context) :
    (runOn c (within frame x)).1 = (runOn (c.push frame) x).1 := by
  rw [runOn_within]
  rcases runOn (c.push frame) x with ⟨_ | a, c'⟩ <;> rfl

theorem result_within {x : Eval α} (hx : IgnoresContext x) (frame : Frame) :
    (within frame x).result = x.result := by
  rw [result, fst_runOn_within, hx]

theorem ignores_within {x : Eval α} (hx : IgnoresContext x) (frame : Frame) :
    IgnoresContext (within frame x) := fun c => by
  rw [result_within hx, fst_runOn_within, hx]

end Eval

open Eval

def BodyEval.IgnoresContext {α : Type} (body : BodyEval α) : Prop :=
  ∀ tuples, Eval.IgnoresContext (body.run tuples)

def LazyBody.IgnoresContext (body : LazyBody) : Prop := ∀ state, (body.entry state).IgnoresContext

/-- The function is carried out in the same way in every context. -/
def Function.IgnoresContext (f : Function) : Prop :=
  (∀ body, f.tupleCall? = some body → body.IgnoresContext) ∧
    ∀ body, f.lazyTupleCall? = some body → body.IgnoresContext

namespace Function

variable {f : Function}

theorem ignores_run {body : BodyEval Unit} (hb : body.IgnoresContext) (tuples : Tuples) :
    (Function.run body tuples).IgnoresContext :=
  ignores_bind (hb tuples) fun _ => ignores_pure _

theorem ignores_close (tuples : Tuples) : (f.close tuples).IgnoresContext := by
  unfold close
  dsimp only
  split
  · exact ignores_pure _
  · exact ignores_throw _

theorem ignores_call {body : BodyEval Unit} (hb : body.IgnoresContext) (tuples : Tuples) :
    (f.call body tuples).IgnoresContext :=
  ignores_bind (ignores_within (ignores_run hb tuples) _) ignores_close

theorem ignores_callIn {body : BodyEval Unit} (hb : body.IgnoresContext) (frame : Frame)
    (tuples : Tuples) : (f.callIn body frame tuples).IgnoresContext :=
  ignores_within (ignores_call hb tuples) frame

theorem result_callIn {body : BodyEval Unit} (hb : body.IgnoresContext) (frame : Frame)
    (tuples : Tuples) : (f.callIn body frame tuples).result = (f.call body tuples).result :=
  result_within (ignores_call hb tuples) frame

variable {body : LazyBody}

theorem ignores_enter (hb : body.IgnoresContext) (state : LazyState) (tuples : Tuples) :
    (f.enter body state tuples).IgnoresContext :=
  ignores_within (hb state tuples) _

theorem ignores_nextLazy (hb : body.IgnoresContext) (state : LazyState) (tuples : Tuples) :
    (f.nextLazy body state tuples).IgnoresContext := by
  refine ignores_bind (ignores_lift _) fun state => ignores_bind (ignores_enter hb state tuples) ?_
  rintro ⟨state, tuples⟩
  dsimp only
  split
  · exact ignores_pure _
  · split
    · exact ignores_throw _
    · exact ignores_bind (ignores_lift _) fun _ => ignores_pure _

theorem ignores_finishLazy (state : LazyState) (tuples : Tuples) :
    (f.finishLazy state tuples).IgnoresContext := by
  unfold finishLazy
  split
  · exact ignores_throw _
  · dsimp only
    split
    · exact ignores_pure _
    · exact ignores_throw _

theorem ignores_provideAll {provide : Nat → Tuple → Eval Tuple}
    (hp : ∀ i input, (provide i input).IgnoresContext) (needed : List Nat) (input : Tuple) :
    (provideAll provide needed input).IgnoresContext := by
  induction needed generalizing input with
  | nil => exact ignores_pure _
  | cons i needed ih =>
      rw [provideAll, List.foldlM_cons]
      exact ignores_bind (hp i input) ih

theorem ignores_runLazy (hb : body.IgnoresContext) {provide : Nat → Tuple → Eval Tuple}
    (hp : ∀ i input, (provide i input).IgnoresContext) (limit : Fault) (entries : Nat)
    (state : LazyState) (tuples : Tuples) :
    (f.runLazy body provide limit entries state tuples).IgnoresContext := by
  induction entries generalizing state tuples with
  | zero => exact ignores_throw limit
  | succ entries ih =>
      rw [runLazy]
      refine ignores_bind (ignores_nextLazy hb state tuples) ?_
      rintro ⟨needed, state, tuples⟩
      dsimp only
      split
      · exact ignores_pure _
      · exact ignores_bind (ignores_provideAll hp needed _) fun input => ih state _

end Function
end Nodeflow
