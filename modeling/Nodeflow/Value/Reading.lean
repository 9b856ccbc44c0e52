import Nodeflow.Value.Basic
import Nodeflow.Decimal.Reading
import Nodeflow.Text.Blank

/-!
# Values from text

The inputs of a function are given as text. Blanks around a text do not count. Vectors, colours and
lists are float literals separated by commas, with blanks allowed around each; an empty text is the
empty list. Objects have no text form.
-/

namespace Nodeflow

inductive ValueTextError where
  | invalid (type : ValueType) (text : String)
  | notTextual (type : ValueType)
  deriving DecidableEq, Repr

def ValueTextError.name : ValueTextError → String
  | invalid .. => "Invalid"
  | notTextual _ => "NotTextual"

def ValueTextError.message : ValueTextError → String
  | invalid type text => "'" ++ text ++ "' is not a valid " ++ type.name
  | notTextual type => type.name ++ " values cannot be parsed from text"

namespace Literal

def bool? (text : List Char) : Option Bool :=
  if text = ['t', 'r', 'u', 'e'] then some true
  else if text = ['f', 'a', 'l', 's', 'e'] then some false
  else none

/-- A whole number in the range of 32 bits: an optional sign and digits. -/
def int32? (text : List Char) : Option Int32 :=
  let (negative, digits) := splitSign text
  if digits.isEmpty || !digits.all Char.isDigit then none
  else
    let n : Int := if negative then -(digitsValue digits : Int) else digitsValue digits
    if -0x80000000 ≤ n && n < 0x80000000 then some (Int32.ofInt n) else none

def splitCommas (text : List Char) : List (List Char) :=
  text.foldr
    (fun c parts => match parts with
      | part :: rest => if c = ',' then [] :: part :: rest else (c :: part) :: rest
      | [] => [])
    [[]]

/-- Float literals separated by commas; a text without characters has none. -/
def floats? (text : List Char) : Option (List Binary32) :=
  if text.isEmpty then some []
  else (splitCommas text).mapM fun part => Binary32.ofLiteral? (Text.trim part)

end Literal

open Literal in
def ValueType.parse (type : ValueType) (text : String) : Except ValueTextError Value :=
  let chars := Text.trim text.toList
  let value? : Option Value := match type with
    | .bool => (bool? chars).map .bool
    | .int => (int32? chars).map .int
    | .float => (Binary32.ofLiteral? chars).map .float
    | .vector3 => match floats? chars with
      | some [x, y, z] => some (.vector3 x y z)
      | _ => none
    | .color => match floats? chars with
      | some [r, g, b, a] => some (.color r g b a)
      | _ => none
    | .string => some (.string (String.ofList chars))
    | .floatList => (floats? chars).map .floatList
    | .object => none
  match value? with
  | some value => .ok value
  | none =>
    .error (if type = .object then .notTextual type else .invalid type (String.ofList chars))

end Nodeflow
