import Nodeflow.Function.Basic

/-!
# Functions as register programs

A compiled body emits the computation of its function into a program under construction. Emitting
the nodes of a graph one after another inlines the whole graph into one program, which runs without
tuples. A finished program is emitted by renaming: its input registers become the registers given
for the inputs, and every other register becomes a new one when it is first met.
-/

namespace Nodeflow

/-- The registers that stand for those of an inlined program, as far as they have been chosen. -/
abbrev Renaming := Array (Option Register)

namespace Program

def inputRenaming (p : Program) (given : List Register) : Except Fault Renaming :=
  (p.inputs.zip given).foldlM
    (fun table (own, given) =>
      if own.number < table.size then .ok (table.setIfInBounds own.number (some given))
      else .error (.outOfBounds table.size own.number))
    (Array.replicate p.registerCount none)

/-- The register that stands for one of the program, chosen anew if there is none yet. -/
def renamed (r : Register) : StateT Renaming Emit Register := do
  let table ← get
  match table[r.number]? with
  | some (some chosen) => return chosen
  | some none =>
    let chosen ← liftM Emit.newRegister
    set (table.setIfInBounds r.number (some chosen))
    return chosen
  | none => throw (.outOfBounds table.size r.number)

/-- Emits the instructions of a finished program with their registers renamed. -/
def inlined (p : Program) : Emitter := fun given => do
  let table ← (p.inputRenaming given : Except Fault Renaming)
  let rename : StateT Renaming Emit (List Instruction × List Register) := do
    let instructions ← p.instructions.toList.mapM (Instruction.rename renamed)
    let outputs ← p.outputs.mapM renamed
    return (instructions, outputs)
  let (instructions, outputs) ← rename.run' table
  instructions.forM Emit.emit
  return outputs

end Program

def Body.ofProgram (p : Program) : Body := .compiled p.inlined

namespace Function

/-- Emits the function's computation. There is one register for each input and output. -/
def emit (f : Function) (emitter : Emitter) : Emitter := fun inputs => do
  if inputs.length ≠ f.inputs.size then
    throw (.inputRegisters f.name inputs.length f.inputs.size)
  let outputs ← emitter inputs
  if outputs.length ≠ f.outputs.size then
    throw (.outputRegisters f.name outputs.length f.outputs.size)
  return outputs

def program (f : Function) (emitter : Emitter) : Except Fault Program := do
  let emission : Emit (List Register × List Register) := do
    let inputs ← Emit.newRegisters f.inputs.size
    let outputs ← f.emit emitter inputs
    return (inputs, outputs)
  let ((inputs, outputs), builder) ← emission.run {}
  return builder.finish inputs outputs

/-- The tuple-call body that runs a program. -/
def runProgram (p : Program) : BodyEval Unit := do
  let size := (← get).input.size
  let args ← (List.range size).mapM BodyEval.take
  let results ← BodyEval.lift (p.execute args)
  results.zipIdx.forM fun (v, o) => BodyEval.put o v

/--
Gives a function a tuple-call body that runs its program. Nothing happens, and the answer is no,
where there is a tuple-call body already or no compiled one.
-/
def attachProgramCall (f : Function) : Except Fault (Bool × Function) :=
  match f.tupleCall?, f.compiled? with
  | none, some emitter => do
    let p ← f.program emitter
    return (true, ← f.attach (.tupleCall (runProgram p)))
  | _, _ => .ok (false, f)

end Function

end Nodeflow
