import Nodeflow.Tree.Node

/-!
# The catalogue of node types

A catalogue holds node types by their names. The standard one has the two interface nodes of a
function and a node for each builtin function. An interface node ends in a placeholder; its ports
are inserted in front of it.
-/

namespace Nodeflow

namespace Idname

/-- The node whose outputs are the parameters of a function. -/
def functionInput : String := "fn_FunctionInputNode"

/-- The node whose inputs are the results of a function. -/
def functionOutput : String := "fn_FunctionOutputNode"

def addFloats : String := "fn_AddFloatsNode"

def subtractFloats : String := "fn_SubtractFloatsNode"

def multiplyFloats : String := "fn_MultiplyFloatsNode"

def divideFloats : String := "fn_DivideFloatsNode"

def combineVector : String := "fn_CombineVectorNode"

def separateVector : String := "fn_SeparateVectorNode"

def switchFloat : String := "fn_SwitchFloatNode"

def floatListSum : String := "fn_FloatListSumNode"

def floatRange : String := "fn_FloatRangeNode"

end Idname

abbrev Catalogue := OrderedMap String NodeType

namespace Catalogue

/-- A catalogue with one more type; it replaces a type of the same name. -/
def register (c : Catalogue) (t : NodeType) : Catalogue := c.insert t.idname t

def inCategory (c : Catalogue) (category : NodeCategory) : List NodeType :=
  c.values.filter fun t => t.category == category

/-- A float input that is zero by default. -/
def floatInput (name : String) : PortSpec := .input name .float (some (.float .zero))

def arithmetic (idname name description : String) : NodeType where
  idname := idname
  name := name
  category := .math
  description := description
  inputs := [floatInput "A", floatInput "B"]
  outputs := [.output "Result" .float]

def standardTypes : List NodeType :=
  [{ idname := Idname.functionInput
     name := "Function Input"
     category := .input
     description := "Parameters of the generated function"
     inputs := []
     outputs := [.placeholder .output] },
    { idname := Idname.functionOutput
      name := "Function Output"
      category := .output
      description := "Results of the generated function"
      inputs := [.placeholder .input]
      outputs := [] },
    arithmetic Idname.addFloats "Add" "Add two floats",
    arithmetic Idname.subtractFloats "Subtract" "Subtract B from A",
    arithmetic Idname.multiplyFloats "Multiply" "Multiply two floats",
    arithmetic Idname.divideFloats "Divide" "Divide A by B, zero when B is zero",
    { idname := Idname.combineVector
      name := "Combine Vector"
      category := .vector
      description := "Build a vector from components"
      inputs := [floatInput "X", floatInput "Y", floatInput "Z"]
      outputs := [.output "Vector" .vector3] },
    { idname := Idname.separateVector
      name := "Separate Vector"
      category := .vector
      description := "Split a vector into components"
      inputs := [.input "Vector" .vector3 (some (.vector3 .zero .zero .zero))]
      outputs := [.output "X" .float, .output "Y" .float, .output "Z" .float] },
    { idname := Idname.switchFloat
      name := "Switch"
      category := .logic
      description := "Pick one of two floats; only the chosen branch is evaluated"
      inputs := [.input "Condition" .bool (some (.bool false)), floatInput "True",
        floatInput "False"]
      outputs := [.output "Result" .float] },
    { idname := Idname.floatListSum
      name := "List Sum"
      category := .list
      description := "Sum all floats in a list"
      inputs := [.input "List" .floatList]
      outputs := [.output "Sum" .float] },
    { idname := Idname.floatRange
      name := "Float Range"
      category := .list
      description := "Evenly spaced floats"
      inputs := [.input "Amount" .int (some (.int 10)), floatInput "Start",
        .input "Step" .float (some (.float .one))]
      outputs := [.output "List" .floatList] }]

def standard : Catalogue := standardTypes.foldl register .empty

/-- A type with further ports, inserted in order. -/
def withPorts (t : NodeType) (direction : Direction) (ports : List (String × PortType)) :
    NodeType :=
  ports.foldl (fun t (name, type) => t.insertPort (.plain name type direction)) t

/-- The type of a function's input node with the given parameters. -/
def functionInput? (c : Catalogue) (parameters : List (String × PortType)) : Option NodeType :=
  (c.get? Idname.functionInput).map fun t => withPorts t .output parameters

/-- The type of a function's output node with the given results. -/
def functionOutput? (c : Catalogue) (results : List (String × PortType)) : Option NodeType :=
  (c.get? Idname.functionOutput).map fun t => withPorts t .input results

end Catalogue

end Nodeflow
