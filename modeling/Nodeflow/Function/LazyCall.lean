import Nodeflow.Function.Basic

/-!
# The lazy calling convention

Not every input has to be computed before a lazy body runs. The caller enters the body again and
again until it has finished; on each entry the body may ask for further inputs, which the caller
stores before the next entry. A few bytes survive from entry to entry. Entries are counted in 32
bits, so a call goes on forever only if its body takes back what has been counted.
-/

namespace Nodeflow

namespace LazyState

def new (scratchSize : Nat) : LazyState := ⟨0, false, Array.replicate scratchSize 0, []⟩

/-- The state at the start of the next entry; the requests of the last one are dropped. -/
def nextEntry (s : LazyState) : Except Fault LazyState :=
  if s.entryCount.toNat + 1 < UInt32.size then
    .ok { s with entryCount := s.entryCount + 1, requested := [] }
  else .error .counterOverflow

def request (s : LazyState) (i : Nat) : LazyState := { s with requested := s.requested ++ [i] }

def finish (s : LazyState) : LazyState := { s with done := true }

def poke (s : LazyState) (i : Nat) (byte : UInt8) : Except Fault LazyState :=
  if i < s.scratch.size then .ok { s with scratch := s.scratch.setIfInBounds i byte }
  else .error (.outOfBounds s.scratch.size i)

end LazyState

def LazyBody.newState (body : LazyBody) : LazyState := .new body.scratchSize

namespace Function

/-- Runs one entry inside a frame with the function's name. -/
def enter (f : Function) (body : LazyBody) (state : LazyState) (tuples : Tuples) :
    Eval (LazyState × Tuples) :=
  Eval.within (.text f.name) ((body.entry state).run tuples)

def enterIn (f : Function) (body : LazyBody) (frame : Frame) (state : LazyState)
    (tuples : Tuples) : Eval (LazyState × Tuples) :=
  Eval.within frame (f.enter body state tuples)

/-- Opens a call: the inputs that are always required must be there. -/
def startLazy (f : Function) (body : LazyBody) (input : Tuple) : Except Fault LazyState := do
  body.alwaysRequired.forM fun i => do
    if !(← input.isFilled i) then throw (.requiredMissing f.name i)
  return body.newState

def stillEmpty (input : Tuple) (inputs : List Nat) : Except Fault (List Nat) :=
  inputs.filterM fun i => do return !(← input.isFilled i)

/--
Runs the next entry of a call. Returns the inputs that the caller has to store before the entry
after it, none if the body has finished; a body that neither finishes nor asks for anything breaks
the convention.
-/
def nextLazy (f : Function) (body : LazyBody) (state : LazyState) (tuples : Tuples) :
    Eval (List Nat × LazyState × Tuples) := do
  let state ← Eval.lift state.nextEntry
  let (state, tuples) ← f.enter body state tuples
  if state.done then return ([], state, tuples)
  if state.requested.isEmpty then throw (.noProgress f.name)
  let needed ← Eval.lift (stillEmpty tuples.input state.requested)
  return (needed, { state with requested := [] }, tuples)

/-- Closes a call: destroys what is left of its inputs, and checks its outputs. -/
def finishLazy (f : Function) (state : LazyState) (tuples : Tuples) : Eval Tuples := do
  if !state.done then throw (.notDone f.name)
  let tuples := { tuples with input := tuples.input.clear }
  if tuples.output.allFilled then return tuples else throw (.outputsMissing f.name)

def provideAll (provide : Nat → Tuple → Eval Tuple) (needed : List Nat) (input : Tuple) :
    Eval Tuple :=
  needed.foldlM (fun input i => provide i input) input

/--
Runs entries until the body has finished, or ends in the fault `limit` when a number of entries is
used up.
-/
def runLazy (f : Function) (body : LazyBody) (provide : Nat → Tuple → Eval Tuple) (limit : Fault) :
    (entries : Nat) → LazyState → Tuples → Eval (LazyState × Tuples)
  | 0, _, _ => throw limit
  | entries + 1, state, tuples => do
    let (needed, state, tuples) ← f.nextLazy body state tuples
    if state.done then return (state, tuples)
    let input ← provideAll provide needed tuples.input
    f.runLazy body provide limit entries state { tuples with input }

def callLazyWithin (f : Function) (body : LazyBody) (provide : Nat → Tuple → Eval Tuple)
    (limit : Fault) (entries : Nat) (tuples : Tuples) : Eval (UInt32 × Tuples) := do
  let state ← Eval.lift (f.startLazy body tuples.input)
  let (state, tuples) ← f.runLazy body provide limit entries state tuples
  let tuples ← f.finishLazy state tuples
  return (state.entryCount, tuples)

/--
Carries out a whole call. The provider is asked for every requested input that is still empty, and
stores it in the argument tuple. Returns the number of entries. A body that leaves the count of its
entries alone comes to its end, or to the end of the count, before as many entries are used up.
-/
def callLazy (f : Function) (body : LazyBody) (provide : Nat → Tuple → Eval Tuple)
    (tuples : Tuples) : Eval (UInt32 × Tuples) :=
  f.callLazyWithin body provide .counterOverflow UInt32.size tuples

end Function

end Nodeflow
