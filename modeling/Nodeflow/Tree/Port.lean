import Nodeflow.Value.Basic
import Nodeflow.Uuid

/-!
# Ports

The nodes of a tree are joined at their ports. A port has a direction and a type. Two types are
there for editing only: `any` goes with every type, and `extend` marks the placeholder at the end of
an interface node, where further ports are inserted.
-/

namespace Nodeflow

structure PortId where
  uuid : Uuid
  deriving DecidableEq, Repr, Inhabited

def PortId.described (id : PortId) : String := "PortId(" ++ id.uuid.toText ++ ")"

inductive Direction where
  | input
  | output
  deriving DecidableEq, Repr, Inhabited

inductive PortType where
  | bool
  | int
  | float
  | vector3
  | color
  | string
  | floatList
  /-- Goes with every type. -/
  | any
  /-- The placeholder that further ports are inserted in front of. -/
  | extend
  deriving DecidableEq, Repr, Inhabited

namespace PortType

def name : PortType → String
  | bool => "Bool"
  | int => "Int"
  | float => "Float"
  | vector3 => "Vector3"
  | color => "Color"
  | string => "String"
  | floatList => "FloatList"
  | any => "Any"
  | extend => "Extend"

def all : List PortType :=
  [bool, int, float, vector3, color, string, floatList, any, extend]

/-- Whether a type goes with every other one. -/
def isGeneric (t : PortType) : Bool := t == any || t == extend

/-- Whether ports of two types may be joined: equal types, both kinds of numbers, generic types. -/
def connectsTo (s t : PortType) : Bool :=
  s.isGeneric || t.isGeneric || s == t ||
    (s == int && t == float) || (s == float && t == int)

def isData (t : PortType) : Bool := t != extend

/-- The type of the values that flow through a port; generic ports have none. -/
def valueType? : PortType → Option ValueType
  | bool => some .bool
  | int => some .int
  | float => some .float
  | vector3 => some .vector3
  | color => some .color
  | string => some .string
  | floatList => some .floatList
  | any | extend => none

end PortType

/-- A value that a port can be given in the tree. -/
inductive PortValue where
  | bool (b : Bool)
  | int (i : Int32)
  | float (x : Binary32)
  | vector3 (x y z : Binary32)
  | color (r g b a : Binary32)
  | string (s : String)
  | floatList (xs : List Binary32)
  deriving DecidableEq, Repr, Inhabited

namespace PortValue

def type : PortValue → PortType
  | bool _ => .bool
  | int _ => .int
  | float _ => .float
  | vector3 .. => .vector3
  | color .. => .color
  | string _ => .string
  | floatList _ => .floatList

/-- The port value that flows through a function as a given value; objects are none. -/
def ofValue? : Value → Option PortValue
  | .bool b => some (bool b)
  | .int i => some (int i)
  | .float x => some (float x)
  | .vector3 x y z => some (vector3 x y z)
  | .color r g b a => some (color r g b a)
  | .string s => some (string s)
  | .floatList xs => some (floatList xs)
  | .object _ => none

def toValue : PortValue → Value
  | bool b => .bool b
  | int i => .int i
  | float x => .float x
  | vector3 x y z => .vector3 x y z
  | color r g b a => .color r g b a
  | string s => .string s
  | floatList xs => .floatList xs

@[simp] theorem ofValue?_toValue (v : PortValue) : ofValue? v.toValue = some v := by
  cases v <;> rfl

end PortValue

/-- What a port is, whichever node it is on. -/
structure PortSpec where
  name : String
  direction : Direction
  type : PortType
  /-- The value of an input that nothing is connected to. -/
  defaultValue : Option PortValue := none
  required : Bool := false
  /-- Whether several connections may end at the port. -/
  multiConnect : Bool := direction == .output
  deriving DecidableEq, Repr, Inhabited

namespace PortSpec

def input (name : String) (type : PortType) (defaultValue : Option PortValue := none) :
    PortSpec := { name, direction := .input, type, defaultValue }

def output (name : String) (type : PortType) : PortSpec := { name, direction := .output, type }

/-- The placeholder of an interface node. -/
def placeholder (direction : Direction) : PortSpec := { name := "", direction, type := .extend }

def plain (name : String) (type : PortType) (direction : Direction) : PortSpec :=
  { name, direction, type }

/-- Whether two ports may be joined: they have different directions, and types that go together. -/
def connectsTo (p q : PortSpec) : Bool := p.direction != q.direction && p.type.connectsTo q.type

end PortSpec

structure Port extends PortSpec where
  id : PortId
  deriving DecidableEq, Repr, Inhabited

/-- Inserts a port at the end of a list, but in front of a placeholder that stands there. -/
def insertPort {α : Type} (type : α → PortType) (port : α) : List α → List α
  | [] => [port]
  | [last] => if type last = .extend then [port, last] else [last, port]
  | first :: rest => first :: insertPort type port rest

end Nodeflow
