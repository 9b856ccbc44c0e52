import Nodeflow.Fault

/-!
# Instructions

A program is a straight line of instructions. Each writes its destinations from its operands; all of
them are registers, except the value of a constant.
-/

namespace Nodeflow

inductive BinaryOp where
  | add
  | subtract
  | multiply
  /-- A quotient by zero is zero. -/
  | divide
  deriving DecidableEq, Repr

namespace BinaryOp

def all : List BinaryOp := [add, subtract, multiply, divide]

def apply : BinaryOp → Binary32 → Binary32 → Binary32
  | add, a, b => a + b
  | subtract, a, b => a - b
  | multiply, a, b => a * b
  | divide, a, b => if b.isZero then .zero else a / b

def name : BinaryOp → String
  | add => "Add"
  | subtract => "Subtract"
  | multiply => "Multiply"
  | divide => "Divide"

end BinaryOp

/-- The list `start, start + step, start + 2 · step, …` with `amount` elements, none if negative. -/
def floatRange (amount : Int32) (start step : Binary32) : List Binary32 :=
  (List.range amount.toInt.toNat).map fun (i : Nat) => start + Binary32.ofInt i * step

inductive Instruction where
  | constant (dst : Register) (value : Value)
  | copy (dst src : Register)
  | binary (op : BinaryOp) (dst lhs rhs : Register)
  | combineVector (dst x y z : Register)
  | separateVector (x y z src : Register)
  | select (dst condition ifTrue ifFalse : Register)
  | intToFloat (dst src : Register)
  | floatToInt (dst src : Register)
  | listSum (dst src : Register)
  | floatRange (dst amount start step : Register)
  deriving DecidableEq, Repr

namespace Instruction

/-- The instruction of a name, if it works on registers alone, given in the order of its fields. -/
def ofRegisters? : (name : String) → List Register → Option Instruction
  | "Copy", [dst, src] => some (copy dst src)
  | "CombineVector", [dst, x, y, z] => some (combineVector dst x y z)
  | "SeparateVector", [x, y, z, src] => some (separateVector x y z src)
  | "Select", [dst, condition, ifTrue, ifFalse] => some (select dst condition ifTrue ifFalse)
  | "IntToFloat", [dst, src] => some (intToFloat dst src)
  | "FloatToInt", [dst, src] => some (floatToInt dst src)
  | "ListSum", [dst, src] => some (listSum dst src)
  | "FloatRange", [dst, amount, start, step] => some (floatRange dst amount start step)
  | _, _ => none

/-- The registers an instruction writes, in the order of its fields. -/
def destinations : Instruction → List Register
  | constant dst _ | copy dst _ | binary _ dst _ _ | combineVector dst _ _ _ | select dst _ _ _
  | intToFloat dst _ | floatToInt dst _ | listSum dst _ | floatRange dst _ _ _ => [dst]
  | separateVector x y z _ => [x, y, z]

/-- The registers an instruction may read, in the order of its fields. -/
def operands : Instruction → List Register
  | constant _ _ => []
  | copy _ src | separateVector _ _ _ src | intToFloat _ src | floatToInt _ src
  | listSum _ src => [src]
  | binary _ _ lhs rhs => [lhs, rhs]
  | combineVector _ x y z => [x, y, z]
  | select _ condition ifTrue ifFalse => [condition, ifTrue, ifFalse]
  | floatRange _ amount start step => [amount, start, step]

/-- Renames every register, destinations before operands, and threads the effects of renaming. -/
def rename {m : Type → Type} [Monad m] (f : Register → m Register) :
    Instruction → m Instruction
  | constant dst value => do return constant (← f dst) value
  | copy dst src => do return copy (← f dst) (← f src)
  | binary op dst lhs rhs => do return binary op (← f dst) (← f lhs) (← f rhs)
  | combineVector dst x y z => do return combineVector (← f dst) (← f x) (← f y) (← f z)
  | separateVector x y z src => do return separateVector (← f x) (← f y) (← f z) (← f src)
  | select dst condition ifTrue ifFalse => do
    return select (← f dst) (← f condition) (← f ifTrue) (← f ifFalse)
  | intToFloat dst src => do return intToFloat (← f dst) (← f src)
  | floatToInt dst src => do return floatToInt (← f dst) (← f src)
  | listSum dst src => do return listSum (← f dst) (← f src)
  | floatRange dst amount start step => do
    return floatRange (← f dst) (← f amount) (← f start) (← f step)

/-- Equality of instructions, with constants compared as a program would compare them. -/
def agrees : Instruction → Instruction → Bool
  | constant dst value, constant dst' value' => dst == dst' && value.agrees value'
  | i, j => i == j

def registerText (r : Register) : String := "Register(" ++ toString r.number ++ ")"

def recordText (name : String) (fields : List (String × String)) : String :=
  name ++ " \x7b " ++ commaSeparated (fields.map fun (field, text) => field ++ ": " ++ text) ++
    " \x7d"

def text : Instruction → String
  | constant dst value => recordText "Constant" [("dst", registerText dst), ("value", value.full)]
  | copy dst src => recordText "Copy" [("dst", registerText dst), ("src", registerText src)]
  | binary op dst lhs rhs => recordText "Binary"
      [("op", op.name), ("dst", registerText dst), ("lhs", registerText lhs),
        ("rhs", registerText rhs)]
  | combineVector dst x y z => recordText "CombineVector"
      [("dst", registerText dst), ("x", registerText x), ("y", registerText y),
        ("z", registerText z)]
  | separateVector x y z src => recordText "SeparateVector"
      [("dst", "[" ++ commaSeparated ([x, y, z].map registerText) ++ "]"),
        ("src", registerText src)]
  | select dst condition ifTrue ifFalse => recordText "Select"
      [("dst", registerText dst), ("condition", registerText condition),
        ("if_true", registerText ifTrue), ("if_false", registerText ifFalse)]
  | intToFloat dst src => recordText "IntToFloat"
      [("dst", registerText dst), ("src", registerText src)]
  | floatToInt dst src => recordText "FloatToInt"
      [("dst", registerText dst), ("src", registerText src)]
  | listSum dst src => recordText "ListSum" [("dst", registerText dst), ("src", registerText src)]
  | floatRange dst amount start step => recordText "FloatRange"
      [("dst", registerText dst), ("amount", registerText amount), ("start", registerText start),
        ("step", registerText step)]

end Instruction

end Nodeflow
