import Nodeflow.Context
import Nodeflow.Program.Basic

/-!
# Functions

A function has a name, parameters, and bodies: different ways to carry it out or to learn about it,
at most one of each kind. Bodies that run see the argument and the result tuple and may change both;
the arguments belong to them.
-/

namespace Nodeflow

structure Tuples where
  input : Tuple
  output : Tuple
  deriving Repr, Inhabited

def Tuples.values (t : Tuples) : List Value := t.input.values ++ t.output.values

/-- A computation of a body: it works on the tuples of its call. -/
abbrev BodyEval := StateT Tuples Eval

/--
A body that is entered again and again until it has finished. An entry finds the whole state of the
call and leaves the whole state. So it may not only ask for inputs, finish the call and write to its
bytes, but also count entries of its own or put another state in the place of this one.
-/
structure LazyBody where
  /-- The number of bytes kept between entries, zero at the start. -/
  scratchSize : Nat := 0
  /-- The inputs that are there before the first entry. -/
  alwaysRequired : List Nat
  entry : LazyState → BodyEval LazyState

/-- Which inputs each output is computed from. -/
inductive Dependencies where
  | allInputs
  /-- Increasing lists of inputs, one for each output. -/
  | perOutput (lists : Array (List Nat))

/-- Emits the program of a function on the registers of its inputs; returns those of its outputs. -/
abbrev Emitter := List Register → Emit (List Register)

/-- One way to carry out a function, or to learn about it. -/
inductive Body where
  | tupleCall (run : BodyEval Unit)
  | lazyTupleCall (body : LazyBody)
  | dependencies (dependencies : Dependencies)
  | compiled (emitter : Emitter)

def Body.kind : Body → BodyKind
  | tupleCall _ => .tupleCall
  | lazyTupleCall _ => .lazyTupleCall
  | dependencies _ => .dependencies
  | compiled _ => .compiled

/-- A named function with its parameters and the bodies attached to it, oldest first. -/
structure Function where
  name : String
  inputs : Array Parameter
  outputs : Array Parameter
  bodies : List Body := []
  deriving Inhabited

namespace Function

def tupleCall? (f : Function) : Option (BodyEval Unit) :=
  f.bodies.findSome? fun | .tupleCall run => some run | _ => none

def lazyTupleCall? (f : Function) : Option LazyBody :=
  f.bodies.findSome? fun | .lazyTupleCall body => some body | _ => none

def dependencies? (f : Function) : Option Dependencies :=
  f.bodies.findSome? fun | .dependencies d => some d | _ => none

def compiled? (f : Function) : Option Emitter :=
  f.bodies.findSome? fun | .compiled emitter => some emitter | _ => none

def hasBody (f : Function) (kind : BodyKind) : Bool := f.bodies.any fun body => body.kind = kind

def newTuples (f : Function) : Tuples := ⟨Tuple.new f.inputs, Tuple.new f.outputs⟩

/-- Dependencies must cover the outputs, one list each, and name inputs only. -/
def checkDependencies (f : Function) : Dependencies → Except Fault Unit
  | .allInputs => .ok ()
  | .perOutput lists => do
    if lists.size ≠ f.outputs.size then
      throw (.dependencyCount f.name lists.size f.outputs.size)
    if !lists.all fun inputs => inputs.all (· < f.inputs.size) then
      throw (.dependencyMissing f.name)

/-- Attaches a body; a second one of the same kind is refused. -/
def attach (f : Function) (body : Body) : Except Fault Function := do
  if f.hasBody body.kind then throw (.secondBody f.name body.kind)
  if let .dependencies d := body then f.checkDependencies d
  return { f with bodies := f.bodies ++ [body] }

def parameterText (p : Parameter) : String :=
  Instruction.recordText "Parameter" [("name", Text.quote p.name), ("value_type", p.type.name)]

def text (f : Function) (kept : List String) : String :=
  let list (parts : List String) := "[" ++ commaSeparated parts ++ "]"
  Instruction.recordText "Function"
    [("name", Text.quote f.name),
      ("inputs", list (f.inputs.toList.map parameterText)),
      ("outputs", list (f.outputs.toList.map parameterText)),
      ("bodies", list (f.bodies.map fun body => body.kind.name)),
      ("resources", list (kept.map Text.quote))]

end Function

/-! ## What bodies do with their tuples -/

namespace BodyEval

def lift {α : Type} (result : Except Fault α) : BodyEval α := liftM (Eval.lift result)

def take (i : Nat) : BodyEval Value := do
  let tuples ← get
  let (v, input) ← lift (tuples.input.take i)
  set { tuples with input }
  return v

def takeAs (i : Nat) (type : ValueType) : BodyEval Value := do
  let tuples ← get
  let (v, input) ← lift (tuples.input.takeAs i type)
  set { tuples with input }
  return v

def takeFloat (i : Nat) : BodyEval Binary32 := do
  match ← takeAs i .float with
  | .float x => return x
  | _ => lift (.error (.elementReadAs i .float))

def takeInt (i : Nat) : BodyEval Int32 := do
  match ← takeAs i .int with
  | .int n => return n
  | _ => lift (.error (.elementReadAs i .int))

def takeBool (i : Nat) : BodyEval Bool := do
  match ← takeAs i .bool with
  | .bool b => return b
  | _ => lift (.error (.elementReadAs i .bool))

def takeVector (i : Nat) : BodyEval (Binary32 × Binary32 × Binary32) := do
  match ← takeAs i .vector3 with
  | .vector3 x y z => return (x, y, z)
  | _ => lift (.error (.elementReadAs i .vector3))

/-- Looks at an input that is a float. -/
def readFloat (i : Nat) : BodyEval Binary32 := do
  match ← lift ((← get).input.valueAs i .float) with
  | .float x => return x
  | _ => lift (.error (.elementReadAs i .float))

def readList (i : Nat) : BodyEval (List Binary32) := do
  match ← lift ((← get).input.valueAs i .floatList) with
  | .floatList xs => return xs
  | _ => lift (.error (.elementReadAs i .floatList))

def put (o : Nat) (v : Value) : BodyEval Unit := do
  let tuples ← get
  let (_, output) ← lift (tuples.output.put o v)
  set { tuples with output }

/-- A body that first records its run. -/
def traced (function : String) (run : BodyEval Unit) : BodyEval Unit := do
  liftM (Eval.record function (← get).input none)
  run

end BodyEval

def LazyBody.traced (function : String) (body : LazyBody) : LazyBody where
  scratchSize := body.scratchSize
  alwaysRequired := body.alwaysRequired
  entry state := do
    liftM (Eval.record function (← get).input (some state))
    body.entry state

end Nodeflow
