import Nodeflow.Function.Basic

/-!
# Constants and interface placeholders

A constant has no inputs. The placeholders stand for the interface of a tree inside its data graph:
they have sockets but no bodies, and are never run.
-/

namespace Nodeflow.Builtin

/-- The function that always gives one value. -/
def constant (value : Value) : Function where
  name := value.type.name ++ " Constant"
  inputs := #[]
  outputs := #[⟨"Value", value.type⟩]
  bodies :=
    [.tupleCall (BodyEval.put 0 value),
      .compiled fun _ => do return [← Emit.constant value],
      .dependencies .allInputs]

/-- The placeholder whose outputs stand for the arguments. -/
def functionInput (parameters : List Parameter) : Function where
  name := "Function Input"
  inputs := #[]
  outputs := parameters.toArray

/-- The placeholder whose inputs stand for the results. -/
def functionOutput (results : List Parameter) : Function where
  name := "Function Output"
  inputs := results.toArray
  outputs := #[]

end Nodeflow.Builtin
