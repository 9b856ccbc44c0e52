import Nodeflow.Builtin.Arithmetic
import Nodeflow.Builtin.Conversion
import Nodeflow.Builtin.FloatList
import Nodeflow.Builtin.Switch
import Nodeflow.Builtin.Vector

/-!
# All builtin functions

The functions of a fixed signature, under their names.
-/

namespace Nodeflow.Builtin

def all : List Function :=
  [addFloats, subtractFloats, multiplyFloats, divideFloats, combineVector, separateVector,
    switchFloat, floatListSum, floatRange, intToFloat, floatToInt]

/-- A name in small letters and with underscores for spaces. -/
def identifier (name : String) : String :=
  name.map fun c => if c = ' ' then '_' else c.toLower

def named? (text : String) : Option Function := all.find? fun f => identifier f.name == text

end Nodeflow.Builtin
