import Nodeflow.Tree.Catalogue

/-!
# Settings

The settings for turning a tree into a function: which node types are the function's interface, and
which bodies it is given besides the one that evaluates its graph.
-/

namespace Nodeflow

/-- The settings for generating functions. -/
structure Config where
  /-- The type of the node whose outputs are the parameters. -/
  inputNode : String := Idname.functionInput
  /-- The type of the node whose inputs are the results. -/
  outputNode : String := Idname.functionOutput
  /-- Whether the function tells which arguments its results depend on. -/
  dependenciesBody : Bool := true
  /-- Whether the function has a program, if all of its nodes have one. -/
  compiledBody : Bool := true
  deriving DecidableEq, Repr, Inhabited

end Nodeflow
