import Nodeflow.Binary32
import Nodeflow.Value.Type

/-!
# Values

A value is what flows through a function: plain data, or an object of the host program that
functions pass on without looking into it. Host objects are told apart by an identity of their own.
-/

namespace Nodeflow

/-- An object of the host program: its identity, and the text it is shown by. -/
structure HostObject where
  identity : Nat
  text : String
  deriving DecidableEq, Repr, Inhabited

/-- The object that stands in where none was given. -/
def HostObject.placeholder : HostObject := ⟨0, "()"⟩

inductive Value where
  | bool (b : Bool)
  | int (i : Int32)
  | float (x : Binary32)
  | vector3 (x y z : Binary32)
  | color (r g b a : Binary32)
  | string (s : String)
  | floatList (xs : List Binary32)
  | object (o : HostObject)
  deriving DecidableEq, Repr, Inhabited

namespace Value

def type : Value → ValueType
  | bool _ => .bool
  | int _ => .int
  | float _ => .float
  | vector3 .. => .vector3
  | color .. => .color
  | string _ => .string
  | floatList _ => .floatList
  | object _ => .object

/-- The host object that a value is; the placeholder is none. -/
def hostObject? : Value → Option HostObject
  | object o => if o = .placeholder then none else some o
  | _ => none

/--
Equality as a program sees it: floats are compared as numbers, so that zeros of both signs agree and
what is not a number differs from itself, and objects are compared by identity.
-/
def agrees : Value → Value → Bool
  | bool a, bool b => a == b
  | int a, int b => a == b
  | float a, float b => a.numericEq b
  | vector3 x y z, vector3 x' y' z' => x.numericEq x' && y.numericEq y' && z.numericEq z'
  | color r g b a, color r' g' b' a' =>
    r.numericEq r' && g.numericEq g' && b.numericEq b' && a.numericEq a'
  | string a, string b => a == b
  | floatList xs, floatList ys =>
    xs.length == ys.length && (xs.zip ys).all fun (x, y) => x.numericEq y
  | object a, object b => a.identity == b.identity
  | _, _ => false

end Value

def ValueType.default : ValueType → Value
  | .bool => .bool false
  | .int => .int 0
  | .float => .float .zero
  | .vector3 => .vector3 .zero .zero .zero
  | .color => .color .zero .zero .zero .one
  | .string => .string ""
  | .floatList => .floatList []
  | .object => .object .placeholder

@[simp] theorem ValueType.type_default (t : ValueType) : t.default.type = t := by
  cases t <;> rfl

end Nodeflow
