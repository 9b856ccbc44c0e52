import Nodeflow.Function.Basic

/-!
# Lists of floats

Evenly spaced lists and sums. Summing only looks at its list; clearing up after the call destroys
it.
-/

namespace Nodeflow.Builtin

def floatListSum : Function where
  name := "Float List Sum"
  inputs := #[⟨"List", .floatList⟩]
  outputs := #[⟨"Sum", .float⟩]
  bodies :=
    [.tupleCall do
        let xs ← BodyEval.readList 0
        BodyEval.put 0 (.float (.sum xs)),
      .compiled fun inputs => do
        let dst ← Emit.newRegister
        Emit.emit (.listSum dst (← Emit.pick inputs 0))
        return [dst],
      .dependencies .allInputs]

/-- The list of a number of floats with equal steps between them. -/
def floatRange : Function where
  name := "Float Range"
  inputs := #[⟨"Amount", .int⟩, ⟨"Start", .float⟩, ⟨"Step", .float⟩]
  outputs := #[⟨"List", .floatList⟩]
  bodies :=
    [.tupleCall do
        let amount ← BodyEval.takeInt 0
        let start ← BodyEval.takeFloat 1
        let step ← BodyEval.takeFloat 2
        BodyEval.put 0 (.floatList (Nodeflow.floatRange amount start step)),
      .compiled fun inputs => do
        let dst ← Emit.newRegister
        Emit.emit (.floatRange dst (← Emit.pick inputs 0) (← Emit.pick inputs 1)
          (← Emit.pick inputs 2))
        return [dst],
      .dependencies .allInputs]

end Nodeflow.Builtin
