import Nodeflow.Decimal.Shortest

/-!
# How floats are written

Three layouts of the shortest digits are in use. Text meant for people is always positional and
leaves out the fraction of a whole number. Text that shows a value in full keeps a fraction or uses
an exponent for very small and very large numbers. Tree files are positional and keep the fraction,
and they alone keep the sign of what is not a number.
-/

namespace Nodeflow

/-- The decisions a way of writing floats makes. -/
structure FloatLayout where
  /-- Whole numbers end in a zero fraction. -/
  keepsFraction : Bool
  /-- The powers of ten written positionally, from the first up to but not with the second. -/
  positional : Option (Int × Int)
  /-- What is not a number shows its sign. -/
  signsNaN : Bool := false

namespace FloatLayout

/-- The layout of text meant for people. -/
def plain : FloatLayout := { keepsFraction := false, positional := none }

/-- The layout of text that shows a value in full. -/
def full : FloatLayout := { keepsFraction := true, positional := some (-4, 16) }

/-- The layout of tree files. -/
def file : FloatLayout := { keepsFraction := true, positional := none, signsNaN := true }

/-- Digits with the decimal point at `point`, counted from the left of the first digit. -/
def place (layout : FloatLayout) (digits : List Char) (point : Int) : List Char :=
  let count : Int := digits.length
  if point ≤ 0 then '0' :: '.' :: (List.replicate (-point).toNat '0' ++ digits)
  else if count ≤ point then
    digits ++ List.replicate (point - count).toNat '0' ++
      if layout.keepsFraction then ['.', '0'] else []
  else digits.take point.toNat ++ '.' :: digits.drop point.toNat

/-- One digit before the point and the power of ten behind the rest. -/
def scientific (digits : List Char) (power : Int) : List Char :=
  let fraction := digits.drop 1
  digits.take 1 ++ (if fraction.isEmpty then [] else '.' :: fraction) ++
    'e' :: (toString power).toList

/-- A positive decimal number. Zeros at the end of its digits carry nothing and are dropped. -/
def decimal (layout : FloatLayout) (d : Decimal) : List Char :=
  let digits := ((Nat.toDigits 10 d.digits).reverse.dropWhile (· == '0')).reverse
  let power := d.point - 1
  match layout.positional with
  | none => layout.place digits d.point
  | some (first, beyond) =>
    if first ≤ power && power < beyond then layout.place digits d.point
    else scientific digits power

def magnitude (layout : FloatLayout) (m : Magnitude) : List Char :=
  if m.isInfinite then ['i', 'n', 'f']
  else if m = .zero then if layout.keepsFraction then ['0', '.', '0'] else ['0']
  else layout.decimal m.shortest

def write (layout : FloatLayout) : Binary32 → String
  | .nan negative => if layout.signsNaN && negative then "-NaN" else "NaN"
  | .number negative m =>
    String.ofList ((if negative then ['-'] else []) ++ layout.magnitude m)

end FloatLayout

end Nodeflow
