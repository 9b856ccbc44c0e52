/-!
# Registers and float arithmetic

The names shared by programs, by the functions that emit them and by the messages about both.
-/

namespace Nodeflow

structure Register where
  number : Nat
  deriving DecidableEq, Repr, Inhabited

def Register.name (r : Register) : String := "r" ++ toString r.number

/-- The kinds of content an instruction can ask of a register. -/
inductive RegisterContent where
  | float
  | int
  | bool
  | vector
  | floatList
  deriving DecidableEq, Repr

def RegisterContent.described : RegisterContent → String
  | float => "a float"
  | int => "an int"
  | bool => "a bool"
  | vector => "a vector"
  | floatList => "a float list"

end Nodeflow
