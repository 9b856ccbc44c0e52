import Nodeflow.Function.Basic

/-!
# Float arithmetic

The four operations on two floats. A quotient by zero is zero.
-/

namespace Nodeflow.Builtin

def floatArithmetic (name : String) (op : BinaryOp) : Function where
  name := name
  inputs := #[⟨"A", .float⟩, ⟨"B", .float⟩]
  outputs := #[⟨"Result", .float⟩]
  bodies :=
    [.tupleCall do
        let a ← BodyEval.takeFloat 0
        let b ← BodyEval.takeFloat 1
        BodyEval.put 0 (.float (op.apply a b)),
      .compiled fun inputs => do
        return [← Emit.binary op (← Emit.pick inputs 0) (← Emit.pick inputs 1)],
      .dependencies .allInputs]

def addFloats : Function := floatArithmetic "Add Floats" .add

def subtractFloats : Function := floatArithmetic "Subtract Floats" .subtract

def multiplyFloats : Function := floatArithmetic "Multiply Floats" .multiply

def divideFloats : Function := floatArithmetic "Divide Floats" .divide

end Nodeflow.Builtin
