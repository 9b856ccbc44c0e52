import Nodeflow.Function.Basic

/-!
# Vectors

A vector from its three components, and the components of a vector.
-/

namespace Nodeflow.Builtin

def combineVector : Function where
  name := "Combine Vector"
  inputs := #[⟨"X", .float⟩, ⟨"Y", .float⟩, ⟨"Z", .float⟩]
  outputs := #[⟨"Vector", .vector3⟩]
  bodies :=
    [.tupleCall do
        let x ← BodyEval.takeFloat 0
        let y ← BodyEval.takeFloat 1
        let z ← BodyEval.takeFloat 2
        BodyEval.put 0 (.vector3 x y z),
      .compiled fun inputs => do
        let dst ← Emit.newRegister
        Emit.emit (.combineVector dst (← Emit.pick inputs 0) (← Emit.pick inputs 1)
          (← Emit.pick inputs 2))
        return [dst],
      .dependencies .allInputs]

def separateVector : Function where
  name := "Separate Vector"
  inputs := #[⟨"Vector", .vector3⟩]
  outputs := #[⟨"X", .float⟩, ⟨"Y", .float⟩, ⟨"Z", .float⟩]
  bodies :=
    [.tupleCall do
        let (x, y, z) ← BodyEval.takeVector 0
        BodyEval.put 0 (.float x)
        BodyEval.put 1 (.float y)
        BodyEval.put 2 (.float z),
      .compiled fun inputs => do
        let x ← Emit.newRegister
        let y ← Emit.newRegister
        let z ← Emit.newRegister
        Emit.emit (.separateVector x y z (← Emit.pick inputs 0))
        return [x, y, z],
      .dependencies .allInputs]

end Nodeflow.Builtin
