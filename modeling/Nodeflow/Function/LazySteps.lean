import Nodeflow.Function.Script

/-!
# Driving a lazy call

A caller may drive a lazy call step by step instead of leaving it to `Function.callLazy`: it opens
the call, runs entries, stores the inputs that were asked for, and closes the call.
-/

namespace Nodeflow

structure LazyCall where
  state : LazyState
  tuples : Tuples
  deriving Inhabited

/-- The host objects of an evaluation that the call does not hold, from some number on. -/
def LazyCall.lostSince (call : LazyCall) (c : Context) (made : Nat) : List HostObject :=
  c.lostSince made call.tuples.values

/-- What a caller can do with a lazy call. -/
inductive LazyStep where
  | start
  | entry
  | store (i : Nat) (value : ValueSpec)
  /-- Counts an entry without running it. -/
  | count
  /-- Runs an entry that has been counted, inside a frame. -/
  | enterIn (frame : Frame)
  | finish
  deriving DecidableEq, Repr

/-- What a step of a caller has led to. -/
structure LazyReport where
  step : LazyStep
  needed : List Nat
  call : LazyCall
  /-- The context behind the step, with the runs of this step alone. -/
  context : Context
  lost : List HostObject

namespace Function

/-- A step of a caller; gives the inputs that an entry needs, and none otherwise. -/
def stepLazy (f : Function) (body : LazyBody) (call : LazyCall) :
    LazyStep → Eval (List Nat × LazyCall)
  | .start => do
    let state ← Eval.lift (f.startLazy body call.tuples.input)
    return ([], { call with state })
  | .entry => do
    let (needed, state, tuples) ← f.nextLazy body call.state call.tuples
    return (needed, { state, tuples })
  | .store i value => do
    let (_, input) ← Eval.lift (call.tuples.input.put i (← value.make))
    return ([], { call with tuples := { call.tuples with input } })
  | .count => do
    let state ← Eval.lift call.state.nextEntry
    return ([], { call with state })
  | .enterIn frame => do
    let (state, tuples) ← f.enterIn body frame call.state call.tuples
    return ([], { state, tuples })
  | .finish => do
    let tuples ← f.finishLazy call.state call.tuples
    return ([], { call with tuples })

/--
The reports of steps in order, up to the first fault. Host objects up to the number `made` belong to
others and are not reported.
-/
def driveLazy (f : Function) (body : LazyBody) (made : Nat) (c : Context) (call : LazyCall) :
    List LazyStep → List LazyReport × Option Fault
  | [] => ([], none)
  | step :: rest =>
    match Eval.runOn { c with runs := #[] } (f.stepLazy body call step) with
    | (.error fault, _) => ([], some fault)
    | (.ok (needed, next), c') =>
      let lost := (next.lostSince c' made).removeAll (call.lostSince c made)
      let (reports, fault?) := f.driveLazy body made c' next rest
      (⟨step, needed, next, c', lost⟩ :: reports, fault?)

end Function

end Nodeflow
