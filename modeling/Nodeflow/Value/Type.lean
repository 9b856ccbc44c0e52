/-!
# Types of values

Parameters, tuple elements and sockets of a data graph have one of eight types.
-/

namespace Nodeflow

inductive ValueType where
  | bool
  | int
  | float
  | vector3
  | color
  | string
  | floatList
  | object
  deriving DecidableEq, Repr, Inhabited

namespace ValueType

def all : List ValueType := [bool, int, float, vector3, color, string, floatList, object]

def name : ValueType → String
  | bool => "Bool"
  | int => "Int"
  | float => "Float"
  | vector3 => "Vector3"
  | color => "Color"
  | string => "String"
  | floatList => "FloatList"
  | object => "Object"

instance : ToString ValueType := ⟨name⟩

end ValueType

/-- A parameter of a function, or the element of a tuple that carries its argument. -/
structure Parameter where
  name : String
  type : ValueType
  deriving DecidableEq, Repr, Inhabited

end Nodeflow
