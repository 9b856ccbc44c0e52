import Nodeflow.Proofs.Function.Entries

/-!
# The frames that bodies see

A computation is balanced if it leaves the stack of frames as it found it. Calls of balanced bodies,
and entries of balanced lazy bodies, are balanced.

What a body finds on the stack is observed with a watch: a watched body first compares the frames with
those that it expects, and ends in an alarm if they are others. Where the expectation is right, the
watch makes no difference.
-/

namespace Nodeflow

namespace Eval

variable {α β σ : Type} {stack : List Frame} {x y : Eval α}

/-- The computation leaves the stack of frames as it found it. -/
def Balanced (x : Eval α) : Prop :=
  ∀ ⦃c a c'⦄, runOn c x = (.ok a, c') → c'.stack = c.stack

/-- On this stack the two computations do the same; where they return, the stack is this one again. -/
def AgreeOn (stack : List Frame) (x y : Eval α) : Prop :=
  ∀ ⦃c⦄, c.stack = stack → runOn c x = runOn c y ∧ ∀ ⦃a c'⦄, runOn c y = (.ok a, c') → c'.stack = stack

theorem Balanced.agreeOn (h : x.Balanced) (stack : List Frame) : AgreeOn stack x x :=
  fun _ hc => ⟨rfl, fun _ _ hx => (h hx).trans hc⟩

theorem balanced_of_agreeOn {y : List Frame → Eval α} (h : ∀ stack, AgreeOn stack (y stack) x) :
    x.Balanced := fun c _ _ hx => (h c.stack rfl).2 hx

theorem agreeOn_pure (a : α) : AgreeOn stack (pure a) (pure a) := by
  refine fun c hc => ⟨rfl, fun b c' h => ?_⟩
  obtain ⟨-, rfl⟩ := runOn_pure_eq_ok_iff.mp h
  exact hc

theorem agreeOn_throw (fault : Fault) : AgreeOn stack (throw fault : Eval α) (throw fault) :=
  fun _ _ => ⟨rfl, fun _ _ h => nomatch h⟩

theorem agreeOn_lift (r : Except Fault α) : AgreeOn stack (lift r) (lift r) := by
  refine fun c hc => ⟨rfl, fun a c' h => ?_⟩
  obtain ⟨-, rfl⟩ := runOn_lift_eq_ok_iff.mp h
  exact hc

theorem AgreeOn.bind {f g : α → Eval β} (hxy : AgreeOn stack x y)
    (hfg : ∀ a, AgreeOn stack (f a) (g a)) : AgreeOn stack (x >>= f) (y >>= g) := by
  intro c hc
  obtain ⟨heq, hstack⟩ := hxy hc
  rw [runOn_bind, runOn_bind, heq]
  rcases hy : runOn c y with ⟨fault | a, c₁⟩
  · exact ⟨rfl, fun _ _ h => nomatch h⟩
  · exact hfg a (hstack hy)

theorem agreeOn_foldlM {f g : β → σ → Eval β} (h : ∀ b s, AgreeOn stack (f b s) (g b s)) (l : List σ)
    (b : β) : AgreeOn stack (l.foldlM f b) (l.foldlM g b) := by
  induction l generalizing b with
  | nil => exact agreeOn_pure b
  | cons s l ih =>
      rw [List.foldlM_cons, List.foldlM_cons]
      exact (h b s).bind ih

theorem AgreeOn.within {frame : Frame} (h : AgreeOn (frame :: stack) x y) :
    AgreeOn stack (within frame x) (within frame y) := by
  intro c hc
  obtain ⟨heq, hstack⟩ := h (c := c.push frame) (by rw [← hc]; rfl)
  refine ⟨by rw [runOn_within, runOn_within, heq], fun a c' hy => ?_⟩
  obtain ⟨c₁, hy', rfl⟩ := runOn_within_eq_ok_iff.mp hy
  exact congrArg List.tail (hstack hy')

/-- Ends in an alarm unless the frames, from the outermost to the innermost, are these. -/
def expectFrames (frames : List Frame) (alarm : Fault) : Eval Unit := do
  if (← get).frames ≠ frames then throw alarm

theorem runOn_expectFrames {c : Context} (alarm : Fault) :
    runOn c (expectFrames c.frames alarm) = (.ok (), c) := by
  have hget : runOn c (get : Eval Context) = (.ok c, c) := rfl
  rw [expectFrames, runOn_bind, hget]
  simp

theorem Balanced.agreeOn_expectFrames (h : x.Balanced) (stack : List Frame) (alarm : Fault) :
    AgreeOn stack (expectFrames stack.reverse alarm >>= fun _ => x) x := by
  rintro c rfl
  refine ⟨?_, (h.agreeOn c.stack rfl).2⟩
  have hexpect := runOn_expectFrames (c := c) alarm
  rw [Context.frames] at hexpect
  rw [runOn_bind, hexpect]

end Eval

open Eval

variable {α : Type}

def BodyEval.Balanced (body : BodyEval α) : Prop := ∀ tuples, Eval.Balanced (body.run tuples)

def LazyBody.Balanced (body : LazyBody) : Prop := ∀ state, (body.entry state).Balanced

/-- The body that an interpreter runs for the function leaves the stack of frames as it found it. -/
structure Function.Balanced (f : Function) : Prop where
  call : ∀ ⦃body⦄, f.tupleCall? = some body → body.Balanced
  entry : f.tupleCall? = none → ∀ ⦃body⦄, f.lazyTupleCall? = some body → body.Balanced

/-- The body, which first looks whether the frames are as expected. -/
def BodyEval.watched (frames : List Frame) (alarm : Fault) (body : BodyEval α) : BodyEval α := do
  liftM (expectFrames frames alarm)
  body

/-- The lazy body, which at each entry first looks whether the frames are as expected. -/
def LazyBody.watched (frames : List Frame) (alarm : Fault) (body : LazyBody) : LazyBody :=
  { body with entry := fun state => (body.entry state).watched frames alarm }

def Body.watched (frames : List Frame) (alarm : Fault) : Body → Body
  | .tupleCall run => .tupleCall (run.watched frames alarm)
  | .lazyTupleCall body => .lazyTupleCall (body.watched frames alarm)
  | .dependencies d => .dependencies d
  | .compiled emitter => .compiled emitter

def Function.watched (frames : List Frame) (alarm : Fault) (f : Function) : Function :=
  { f with bodies := f.bodies.map (Body.watched frames alarm) }

theorem BodyEval.run_watched (frames : List Frame) (alarm : Fault) (body : BodyEval α)
    (tuples : Tuples) :
    (body.watched frames alarm).run tuples = expectFrames frames alarm >>= fun _ => body.run tuples := by
  rw [watched, StateT.run_bind, StateT.run_monadLift, bind_assoc]
  rfl

theorem BodyEval.Balanced.agreeOn_run {body : BodyEval α} (h : body.Balanced) (stack : List Frame)
    (alarm : Fault) (tuples : Tuples) :
    AgreeOn stack ((body.watched stack.reverse alarm).run tuples) (body.run tuples) := by
  rw [BodyEval.run_watched]
  exact (h tuples).agreeOn_expectFrames stack alarm

namespace Function

variable {f : Function} {stack : List Frame}

@[simp] theorem tupleCall?_watched (frames : List Frame) (alarm : Fault) (f : Function) :
    (f.watched frames alarm).tupleCall? = f.tupleCall?.map (BodyEval.watched frames alarm) := by
  unfold tupleCall? watched
  induction f.bodies with
  | nil => rfl
  | cons body bodies ih => cases body <;> simp [Body.watched, ih]

@[simp] theorem lazyTupleCall?_watched (frames : List Frame) (alarm : Fault) (f : Function) :
    (f.watched frames alarm).lazyTupleCall? =
      f.lazyTupleCall?.map (LazyBody.watched frames alarm) := by
  unfold lazyTupleCall? watched
  induction f.bodies with
  | nil => rfl
  | cons body bodies ih => cases body <;> simp [Body.watched, ih]

theorem agreeOn_close (f : Function) (tuples : Tuples) :
    AgreeOn stack (f.close tuples) (f.close tuples) := by
  unfold close
  dsimp only
  split
  · exact agreeOn_pure _
  · exact agreeOn_throw _

theorem agreeOn_finishLazy (f : Function) (state : LazyState) (tuples : Tuples) :
    AgreeOn stack (f.finishLazy state tuples) (f.finishLazy state tuples) := by
  unfold finishLazy
  split
  · exact agreeOn_throw _
  · dsimp only
    split
    · exact agreeOn_pure _
    · exact agreeOn_throw _

/-- Bodies that do the same inside the frame of the function make no difference to its calls. -/
theorem agreeOn_call {body body' : BodyEval Unit} (tuples : Tuples)
    (h : AgreeOn (.text f.name :: stack) (Function.run body tuples) (Function.run body' tuples)) :
    AgreeOn stack (f.call body tuples) (f.call body' tuples) :=
  h.within.bind f.agreeOn_close

theorem agreeOn_callIn_watched {body : BodyEval Unit} (h : body.Balanced) (frame : Frame)
    (alarm : Fault) (tuples : Tuples) :
    AgreeOn stack
      (f.callIn (body.watched (stack.reverse ++ [frame, .text f.name]) alarm) frame tuples)
      (f.callIn body frame tuples) := by
  have hrun := h.agreeOn_run (.text f.name :: frame :: stack) alarm tuples
  simp only [List.reverse_cons, List.append_assoc, List.cons_append, List.nil_append] at hrun
  exact (agreeOn_call tuples (hrun.bind fun _ => agreeOn_pure _)).within

theorem agreeOn_nextLazy_watched {body : LazyBody} (h : body.Balanced) (frame : Frame)
    (alarm : Fault) (state : LazyState) (tuples : Tuples) :
    AgreeOn stack
      (Eval.within frame
        (f.nextLazy (body.watched (stack.reverse ++ [frame, .text f.name]) alarm) state tuples))
      (Eval.within frame (f.nextLazy body state tuples)) := by
  have hrun (s : LazyState) := (h s).agreeOn_run (.text f.name :: frame :: stack) alarm tuples
  simp only [List.reverse_cons, List.append_assoc, List.cons_append, List.nil_append] at hrun
  rw [nextLazy_eq, nextLazy_eq]
  refine AgreeOn.within ((agreeOn_lift _).bind fun s => ?_)
  exact (hrun s).within.bind fun x => agreeOn_lift _

end Function

end Nodeflow
