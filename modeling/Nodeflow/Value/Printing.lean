import Nodeflow.Value.Basic
import Nodeflow.Decimal.Layout
import Nodeflow.Text.Quoted

/-!
# How values are written

`Value.plain` is the text of a result, meant for people. `Value.full` names the kind of value and
shows its content so that values of different kind never look the same; messages about programs use
it.
-/

namespace Nodeflow

def commaSeparated (parts : List String) : String := ", ".intercalate parts

def floatListText (xs : List Binary32) : String :=
  "[" ++ commaSeparated (xs.map FloatLayout.full.write) ++ "]"

namespace Value

/-- The text of a value meant for people. -/
def plain : Value → String
  | bool b => if b then "true" else "false"
  | int i => toString i.toInt
  | float x => FloatLayout.plain.write x
  | vector3 x y z => "(" ++ commaSeparated ([x, y, z].map FloatLayout.plain.write) ++ ")"
  | color r g b a => "rgba(" ++ commaSeparated ([r, g, b, a].map FloatLayout.plain.write) ++ ")"
  | string s => Text.quote s
  | floatList xs => floatListText xs
  | object o => "<" ++ o.text ++ ">"

/-- The kind of a value and, between parentheses, its content. -/
def full : Value → String
  | bool b => "Bool(" ++ (if b then "true" else "false") ++ ")"
  | int i => "Int(" ++ toString i.toInt ++ ")"
  | float x => "Float(" ++ FloatLayout.full.write x ++ ")"
  | vector3 x y z => "Vector3(" ++ floatListText [x, y, z] ++ ")"
  | color r g b a => "Color(" ++ floatListText [r, g, b, a] ++ ")"
  | string s => "String(" ++ Text.quote s ++ ")"
  | floatList xs => "FloatList(" ++ floatListText xs ++ ")"
  | object o => "Object(" ++ o.text ++ ")"

end Value

end Nodeflow
