import Nodeflow.Program.Instruction

/-!
# Programs

A program has registers for its arguments, registers that hold its results in the end, and the
instructions in between. Running it is a fault where an instruction reads a register that nothing
has written, finds a value of the wrong kind, or names a register the program does not have.
-/

namespace Nodeflow

/-- A straight-line register program. -/
structure Program where
  inputs : List Register
  outputs : List Register
  instructions : Array Instruction
  registerCount : Nat
  deriving DecidableEq, Repr, Inhabited

/-- The contents of the registers while a program runs. -/
abbrev Registers := Array (Option Value)

namespace Registers

def write (regs : Registers) (r : Register) (v : Value) : Except Fault Registers :=
  if r.number < regs.size then .ok (regs.setIfInBounds r.number (some v))
  else .error (.outOfBounds regs.size r.number)

def read (regs : Registers) (r : Register) : Except Fault Value := do
  match ← elementAt regs r.number with
  | some v => .ok v
  | none => .error (.unwritten r)

def readFloat (regs : Registers) (r : Register) : Except Fault Binary32 := do
  match ← regs.read r with
  | .float x => .ok x
  | v => .error (.wrongContent r v .float)

def readInt (regs : Registers) (r : Register) : Except Fault Int32 := do
  match ← regs.read r with
  | .int i => .ok i
  | v => .error (.wrongContent r v .int)

def readBool (regs : Registers) (r : Register) : Except Fault Bool := do
  match ← regs.read r with
  | .bool b => .ok b
  | v => .error (.wrongContent r v .bool)

def readVector (regs : Registers) (r : Register) :
    Except Fault (Binary32 × Binary32 × Binary32) := do
  match ← regs.read r with
  | .vector3 x y z => .ok (x, y, z)
  | v => .error (.wrongContent r v .vector)

def readList (regs : Registers) (r : Register) : Except Fault (List Binary32) := do
  match ← regs.read r with
  | .floatList xs => .ok xs
  | v => .error (.wrongContent r v .floatList)

end Registers

def Instruction.step (i : Instruction) (regs : Registers) : Except Fault Registers :=
  match i with
  | constant dst value => regs.write dst value
  | copy dst src => do regs.write dst (← regs.read src)
  | binary op dst lhs rhs => do
    let a ← regs.readFloat lhs
    let b ← regs.readFloat rhs
    regs.write dst (.float (op.apply a b))
  | combineVector dst x y z => do
    let a ← regs.readFloat x
    let b ← regs.readFloat y
    let c ← regs.readFloat z
    regs.write dst (.vector3 a b c)
  | separateVector x y z src => do
    let (a, b, c) ← regs.readVector src
    let regs ← regs.write x (.float a)
    let regs ← regs.write y (.float b)
    regs.write z (.float c)
  | select dst condition ifTrue ifFalse => do
    let b ← regs.readBool condition
    regs.write dst (← regs.read (if b then ifTrue else ifFalse))
  | intToFloat dst src => do regs.write dst (.float (.ofInt (← regs.readInt src).toInt))
  | floatToInt dst src => do regs.write dst (.int (← regs.readFloat src).toInt32)
  | listSum dst src => do regs.write dst (.float (.sum (← regs.readList src)))
  | floatRange dst amount start step => do
    let n ← regs.readInt amount
    let a ← regs.readFloat start
    let d ← regs.readFloat step
    regs.write dst (.floatList (Nodeflow.floatRange n a d))

namespace Program

/-- The registers at the start, with the arguments written in order. -/
def load (p : Program) (args : List Value) : Except Fault Registers :=
  (p.inputs.zip args).foldlM (fun regs (r, v) => regs.write r v)
    (Array.replicate p.registerCount none)

def execute (p : Program) (args : List Value) : Except Fault (List Value) := do
  if args.length ≠ p.inputs.length then
    throw (.argumentCount args.length p.inputs.length)
  let regs ← p.load args
  let regs ← p.instructions.foldlM (fun regs i => i.step regs) regs
  p.outputs.mapM regs.read

/-- Equality of programs, with constants compared as a program would compare them. -/
def agrees (p q : Program) : Bool :=
  p.inputs == q.inputs && p.outputs == q.outputs && p.registerCount == q.registerCount &&
    p.instructions.size == q.instructions.size &&
    (p.instructions.toList.zip q.instructions.toList).all fun (i, j) => i.agrees j

/-- The listing of a program: its registers, then one line for each instruction. -/
def text (p : Program) : String :=
  let names (rs : List Register) := commaSeparated (rs.map Register.name)
  "program(" ++ names p.inputs ++ ") -> (" ++ names p.outputs ++ ")\n" ++
    String.join (p.instructions.toList.map fun i => "  " ++ i.text ++ "\n")

end Program

/-- A program under construction: the instructions so far and the registers handed out. -/
structure ProgramBuilder where
  instructions : Array Instruction := #[]
  registerCount : Nat := 0
  deriving Repr, Inhabited

abbrev Emit := StateT ProgramBuilder (Except Fault)

namespace Emit

/-- Hands out the next register. Register numbers have 32 bits. -/
def newRegister : Emit Register := do
  let builder ← get
  if builder.registerCount + 1 < UInt32.size then
    set { builder with registerCount := builder.registerCount + 1 }
    return ⟨builder.registerCount⟩
  else throw .counterOverflow

def emit (i : Instruction) : Emit Unit :=
  modify fun builder => { builder with instructions := builder.instructions.push i }

def constant (value : Value) : Emit Register := do
  let dst ← newRegister
  emit (.constant dst value)
  return dst

def binary (op : BinaryOp) (lhs rhs : Register) : Emit Register := do
  let dst ← newRegister
  emit (.binary op dst lhs rhs)
  return dst

def pick (registers : List Register) (i : Nat) : Emit Register :=
  match registers[i]? with
  | some r => return r
  | none => throw (.outOfBounds registers.length i)

def newRegisters (count : Nat) : Emit (List Register) :=
  (List.range count).mapM fun _ => newRegister

end Emit

/-- Seals the instructions of a builder. -/
def ProgramBuilder.finish (builder : ProgramBuilder) (inputs outputs : List Register) : Program :=
  ⟨inputs, outputs, builder.instructions, builder.registerCount⟩

end Nodeflow
