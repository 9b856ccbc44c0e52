import Nodeflow.Function.LazyCall

/-!
# The switch

A switch chooses one of two floats. Its body is lazy: it looks at the condition first and then asks
for the chosen float alone, so that the other one is never computed. The chosen input is remembered
in one byte.
-/

namespace Nodeflow.Builtin

def switchBody : LazyBody where
  scratchSize := 1
  alwaysRequired := [0]
  entry state := do
    if state.entryCount = 1 then
      let condition ← BodyEval.takeBool 0
      let branch : Nat := if condition then 1 else 2
      let state ← BodyEval.lift (state.poke 0 branch.toUInt8)
      return state.request branch
    else
      let branch ← BodyEval.lift (elementAt state.scratch 0)
      let x ← BodyEval.takeFloat branch.toNat
      BodyEval.put 0 (.float x)
      return state.finish

def switchFloat : Function where
  name := "Switch Float"
  inputs := #[⟨"Condition", .bool⟩, ⟨"True", .float⟩, ⟨"False", .float⟩]
  outputs := #[⟨"Result", .float⟩]
  bodies :=
    [.lazyTupleCall switchBody,
      .compiled fun inputs => do
        let dst ← Emit.newRegister
        Emit.emit (.select dst (← Emit.pick inputs 0) (← Emit.pick inputs 1)
          (← Emit.pick inputs 2))
        return [dst],
      .dependencies .allInputs]

end Nodeflow.Builtin
