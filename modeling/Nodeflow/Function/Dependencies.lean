import Nodeflow.Function.Basic

/-!
# Dependencies of outputs

Dependencies are kept as increasing lists without repetition, and looked up by output.
-/

namespace Nodeflow

/-- Inserts a number into an increasing list, unless it is there. -/
def insertIncreasing (n : Nat) : List Nat → List Nat
  | [] => [n]
  | m :: rest => if n < m then n :: m :: rest else if n = m then m :: rest
    else m :: insertIncreasing n rest

def increasing (numbers : List Nat) : List Nat := numbers.foldr insertIncreasing []

/-- Dependencies given by a list of inputs for each output. -/
def Dependencies.ofLists (lists : List (List Nat)) : Dependencies :=
  .perOutput (lists.map increasing).toArray

namespace Function

def dependenciesOf (f : Function) (d : Dependencies) (o : Nat) : Except Fault (List Nat) :=
  match d with
  | .allInputs =>
    if o < f.outputs.size then .ok (List.range f.inputs.size)
    else .error (.outOfBounds f.outputs.size o)
  | .perOutput lists => elementAt lists o

def dependencyLists (f : Function) (d : Dependencies) : Except Fault (List (List Nat)) :=
  (List.range f.outputs.size).mapM (f.dependenciesOf d)

def dependsOn (f : Function) (d : Dependencies) (o i : Nat) : Except Fault Bool :=
  (f.dependenciesOf d o).map fun inputs => inputs.contains i

/--
The inputs to follow from an output: those it is known to depend on, and all of them where nothing
is known.
-/
def reads (f : Function) (o : Nat) : Except Fault (List Nat) :=
  match f.dependencies? with
  | some d => f.dependenciesOf d o
  | none => .ok (List.range f.inputs.size)

end Function

end Nodeflow
