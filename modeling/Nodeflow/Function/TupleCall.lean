import Nodeflow.Function.Basic

/-!
# The tuple-call convention

A tuple-call body takes an argument tuple and fills a result tuple. During the call it owns the
values of both: it may move arguments out or destroy them. What is left of the arguments afterwards
is destroyed by the caller's side of the convention. The result tuple may have values from the
start, and must be complete in the end.
-/

namespace Nodeflow.Function

/-- Runs a body on tuples, without frames or clearing up. -/
def run (body : BodyEval Unit) (tuples : Tuples) : Eval Tuples := do
  let ((), tuples) ← body.run tuples
  return tuples

/-- Destroys what is left of the arguments; the results must be complete. -/
def close (f : Function) (tuples : Tuples) : Eval Tuples := do
  let tuples := { tuples with input := tuples.input.clear }
  if tuples.output.allFilled then return tuples else throw (.outputsMissing f.name)

/-- Calls a body of the function inside a frame with the function's name. -/
def call (f : Function) (body : BodyEval Unit) (tuples : Tuples) : Eval Tuples := do
  let tuples ← Eval.within (.text f.name) (run body tuples)
  f.close tuples

def callIn (f : Function) (body : BodyEval Unit) (frame : Frame) (tuples : Tuples) :
    Eval Tuples :=
  Eval.within frame (f.call body tuples)

end Nodeflow.Function
