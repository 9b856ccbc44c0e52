import Nodeflow.Decimal.Basic

/-!
# Reading float literals

A literal is an optional sign followed by `inf`, `infinity` or `nan` in any case, or by digits with
at most one decimal point among them and an optional power of ten. There must be a digit before or
after the point, and a digit in the power if there is one. Nothing may surround a literal.
-/

namespace Nodeflow

namespace Literal

def digitsValue (digits : List Char) : Nat :=
  digits.foldl (fun n c => 10 * n + (c.toNat - '0'.toNat)) 0

/-- Splits an optional sign off; the first part tells whether it is a minus. -/
def splitSign : List Char → Bool × List Char
  | '-' :: rest => (true, rest)
  | '+' :: rest => (false, rest)
  | rest => (false, rest)

/-- The power of ten behind the digits: nothing, or a mark and a signed whole number. -/
def power? : List Char → Option Int
  | [] => some 0
  | mark :: rest =>
    if mark == 'e' || mark == 'E' then
      let (negative, digits) := splitSign rest
      if digits.isEmpty || !digits.all Char.isDigit then none
      else some (if negative then -(digitsValue digits : Int) else digitsValue digits)
    else none

def decimal? (text : List Char) : Option Decimal :=
  let whole := text.takeWhile Char.isDigit
  let rest := text.dropWhile Char.isDigit
  let (fraction, rest) := match rest with
    | '.' :: rest => (rest.takeWhile Char.isDigit, rest.dropWhile Char.isDigit)
    | rest => ([], rest)
  if whole.isEmpty && fraction.isEmpty then none
  else (power? rest).map fun power =>
    ⟨digitsValue (whole ++ fraction), power - fraction.length⟩

end Literal

def Binary32.ofLiteral? (text : List Char) : Option Binary32 :=
  let (negative, rest) := Literal.splitSign text
  let word := rest.map Char.toLower
  if word = ['n', 'a', 'n'] then some (.nan negative)
  else if word = ['i', 'n', 'f'] || word = ['i', 'n', 'f', 'i', 'n', 'i', 't', 'y'] then
    some (.number negative .infinity)
  else (Literal.decimal? rest).map fun d => .number negative d.toMagnitude

end Nodeflow
