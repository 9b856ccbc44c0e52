import Nodeflow.Function.Basic

/-!
# Conversions between numbers

A link may join a whole number to a float and the other way round; the conversion then stands on
the link as a function of its own. No other types convert.
-/

namespace Nodeflow.Builtin

def intToFloat : Function where
  name := "Int to Float"
  inputs := #[⟨"Int", .int⟩]
  outputs := #[⟨"Float", .float⟩]
  bodies :=
    [.tupleCall do
        let i ← BodyEval.takeInt 0
        BodyEval.put 0 (.float (.ofInt i.toInt)),
      .compiled fun inputs => do
        let dst ← Emit.newRegister
        Emit.emit (.intToFloat dst (← Emit.pick inputs 0))
        return [dst],
      .dependencies .allInputs]

def floatToInt : Function where
  name := "Float to Int"
  inputs := #[⟨"Float", .float⟩]
  outputs := #[⟨"Int", .int⟩]
  bodies :=
    [.tupleCall do
        let x ← BodyEval.takeFloat 0
        BodyEval.put 0 (.int x.toInt32),
      .compiled fun inputs => do
        let dst ← Emit.newRegister
        Emit.emit (.floatToInt dst (← Emit.pick inputs 0))
        return [dst],
      .dependencies .allInputs]

def conversion? : (source target : ValueType) → Option Function
  | .int, .float => some intToFloat
  | .float, .int => some floatToInt
  | _, _ => none

end Nodeflow.Builtin
