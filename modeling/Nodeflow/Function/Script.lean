import Nodeflow.Function.LazyCall

/-!
# Scripted bodies

A script is a body given as data: a list of actions on the tuples of a call, carried out in order. A
scripted lazy body has one script for each entry; at any other entry it just finishes. Every run of
a scripted body is recorded in the context.
-/

namespace Nodeflow

/-- A value described by a caller. A host object is made anew each time its description is used. -/
inductive ValueSpec where
  | value (v : Value)
  | newObject (text : String)
  deriving DecidableEq, Repr, Inhabited

def ValueSpec.make : ValueSpec → Eval Value
  | value v => return v
  | newObject text => return .object (← Eval.makeObject text)

inductive Action where
  | move (i o : Nat)
  /-- Stores an input as an output and leaves it where it is. -/
  | copy (i o : Nat)
  /-- Takes an input and destroys it. -/
  | drop (i : Nat)
  | set (o : Nat) (value : Value)
  | setIfEmpty (o : Nat) (value : Value)
  /-- Stores the sum of inputs that are floats, from left to right and starting at zero. -/
  | sum (inputs : List Nat) (o : Nat)
  | depth (o : Nat)
  | request (i : Nat)
  | finish
  | poke (k : Nat) (byte : UInt8)
  | peek (k o : Nat)
  deriving DecidableEq, Repr

/-- The action of a name, if it works on positions alone, given in the order of its fields. -/
def Action.ofPositions? : (name : String) → List Nat → Option Action
  | "move", [i, o] => some (move i o)
  | "copy", [i, o] => some (copy i o)
  | "drop", [i] => some (drop i)
  | "depth", [o] => some (depth o)
  | "request", [i] => some (request i)
  | "done", [] => some finish
  | "peek", [k, o] => some (peek k o)
  | _, _ => none

abbrev Script := List Action

/-- Carries out an action; requests, bytes and the end of the call go into the state. -/
def Action.run (state : LazyState) : Action → BodyEval LazyState
  | move i o => do
    BodyEval.put o (← BodyEval.take i)
    return state
  | copy i o => do
    BodyEval.put o (← BodyEval.lift ((← get).input.value i))
    return state
  | drop i => do
    let _ ← BodyEval.take i
    return state
  | set o value => do
    BodyEval.put o value
    return state
  | setIfEmpty o value => do
    if !(← BodyEval.lift ((← get).output.isFilled o)) then BodyEval.put o value
    return state
  | sum inputs o => do
    let terms ← inputs.mapM BodyEval.readFloat
    BodyEval.put o (.float (terms.foldl (· + ·) .zero))
    return state
  | depth o => do
    BodyEval.put o (.int (Int32.ofNat (← getThe Context).depth))
    return state
  | request i => return state.request i
  | finish => return state.finish
  | poke k byte => BodyEval.lift (state.poke k byte)
  | peek k o => do
    let byte ← BodyEval.lift (elementAt state.scratch k)
    BodyEval.put o (.int (Int32.ofNat byte.toNat))
    return state

namespace Script

def run (script : Script) (state : LazyState) : BodyEval LazyState :=
  script.foldlM Action.run state

def tupleCall (function : String) (script : Script) : Body :=
  .tupleCall <| BodyEval.traced function do
    let _ ← script.run (LazyState.new 0)

/-- The script of an entry, counted from one. -/
def ofEntry (scripts : List Script) (entryCount : Nat) : Script :=
  match entryCount with
  | 0 => [.finish]
  | k + 1 => scripts[k]?.getD [.finish]

def lazyTupleCall (function : String) (alwaysRequired : List Nat) (scratchSize : Nat)
    (scripts : List Script) : Body :=
  .lazyTupleCall <| LazyBody.traced function
    { scratchSize
      alwaysRequired
      entry := fun state => (ofEntry scripts state.entryCount.toNat).run state }

/-- Provides the inputs of a list, and records everything that it is asked for. -/
def provider (given : List (Nat × ValueSpec)) (i : Nat) (input : Tuple) : Eval Tuple := do
  modify fun c => { c with demands := c.demands.push (i, c.depth) }
  match given.lookup i with
  | none => return input
  | some value =>
    let (_, input) ← Eval.lift (input.put i (← value.make))
    return input

end Script

end Nodeflow
