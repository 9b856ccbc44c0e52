import Nodeflow.Tuple

/-!
# The context of an evaluation

All calls of one evaluation share a context. It holds the stack of diagnostic frames, which tells
where the evaluation is, the record that traced bodies leave of their runs, and the host objects
made on the way. A fault ends the evaluation but leaves the context as it was at that moment, so the
record survives.
-/

namespace Nodeflow

/-- Where a node comes from: the tree it belongs to and its name there. -/
structure SourceInfo where
  tree : String
  node : String
  deriving DecidableEq, Repr, Inhabited

/-- A diagnostic frame: a plain text, usually the name of a function, or a node of a tree. -/
inductive Frame where
  | text (text : String)
  | source (info : SourceInfo)
  deriving DecidableEq, Repr, Inhabited

def Frame.plain : Frame → String
  | .text t => t
  | .source info => "Node: " ++ info.node ++ " in " ++ info.tree

/-- The state of a lazy call between its entries. -/
structure LazyState where
  entryCount : UInt32
  done : Bool
  /-- Bytes that the body keeps from one entry to the next. -/
  scratch : Array UInt8
  /-- The inputs asked for during the current entry. -/
  requested : List Nat
  deriving DecidableEq, Repr, Inhabited

/-- One run of a traced body, as it found things at its start. -/
structure Run where
  function : String
  frames : List Frame
  inputs : List (Option Value)
  /-- The state of the call, if the body is a lazy one. -/
  state : Option LazyState
  deriving Repr

/-- What all calls of one evaluation share. -/
structure Context where
  /-- The diagnostic frames, innermost first. -/
  stack : List Frame := []
  /-- The runs of traced bodies, oldest first. -/
  runs : Array Run := #[]
  /-- The host objects made during the evaluation, oldest first. -/
  objects : Array HostObject := #[]
  /-- The inputs that were asked of providers, each with the number of frames at that moment. -/
  demands : Array (Nat × Nat) := #[]
  deriving Repr, Inhabited

namespace Context

/-- A context on a stack of frames given from the outermost to the innermost. -/
def onStack (frames : List Frame) : Context := { stack := frames.reverse }

def depth (c : Context) : Nat := c.stack.length

def frames (c : Context) : List Frame := c.stack.reverse

def push (c : Context) (frame : Frame) : Context := { c with stack := frame :: c.stack }

def pop (c : Context) : Option Frame × Context :=
  (c.stack.head?, { c with stack := c.stack.tail })

/-- The objects made after the first few of them that are none of some values. -/
def lostSince (c : Context) (made : Nat) (held : List Value) : List HostObject :=
  (c.objects.toList.drop made).filter fun object => !held.contains (.object object)

def traceback (c : Context) : String :=
  "Traceback:\n" ++ String.join (c.frames.map fun frame => " > " ++ frame.plain ++ "\n")

end Context

/-- A computation within an evaluation: it may change the context, and it may end in a fault. -/
abbrev Eval := ExceptT Fault (StateM Context)

namespace Eval

def runOn {α : Type} (c : Context) (action : Eval α) : Except Fault α × Context :=
  StateT.run (ExceptT.run action) c

def lift {α : Type} (result : Except Fault α) : Eval α := liftExcept result

def push (frame : Frame) : Eval Unit := modify fun c => c.push frame

def pop : Eval Unit := modify fun c => c.pop.2

def within {α : Type} (frame : Frame) (action : Eval α) : Eval α := do
  push frame
  let result ← action
  pop
  return result

def record (function : String) (inputs : Tuple) (state : Option LazyState) : Eval Unit :=
  modify fun c => { c with runs := c.runs.push ⟨function, c.frames, inputs.contents, state⟩ }

def makeObject (text : String) : Eval HostObject := do
  let object := ⟨(← get).objects.size + 1, text⟩
  modify fun c => { c with objects := c.objects.push object }
  return object

end Eval

end Nodeflow
