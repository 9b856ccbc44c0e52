/-!
# Kinds of bodies

A function has at most one body of each kind.
-/

namespace Nodeflow

inductive BodyKind where
  /-- It fills an output tuple from an input tuple. -/
  | tupleCall
  /-- It does so too, and asks for some of its inputs only when it needs them. -/
  | lazyTupleCall
  /-- It tells which inputs each output is computed from. -/
  | dependencies
  /-- It emits a register program. -/
  | compiled
  deriving DecidableEq, Repr

def BodyKind.all : List BodyKind := [tupleCall, lazyTupleCall, dependencies, compiled]

def BodyKind.name : BodyKind → String
  | tupleCall => "TupleCall"
  | lazyTupleCall => "LazyInTupleCall"
  | dependencies => "Dependencies"
  | compiled => "Compiled"

end Nodeflow
