import Nodeflow.Binary32

/-!
# Decimal numbers

A decimal number is a whole number of digits times a power of ten. `Decimal.toMagnitude` rounds one
to the nearest 32-bit magnitude; every reader of float literals goes through it.
-/

namespace Nodeflow

/-- The number `digits · 10 ^ exponent`. -/
structure Decimal where
  digits : Nat
  exponent : Int
  deriving DecidableEq, Repr

namespace Decimal

def powerOfTen (n : Nat) : Nat := Nat.pow 10 n

/-- How many decimal digits a whole number is written with. -/
def length (n : Nat) : Nat := (Nat.toDigits 10 n).length

/-- The place of the decimal point, counted from the left of the first digit. -/
def point (d : Decimal) : Int := length d.digits + d.exponent

/--
The magnitude nearest to a decimal number, ties to the even rank. Numbers of at least `10 ^ 39` are
beyond every finite magnitude, and numbers below `10 ^ -46` round to zero, so their powers of ten
are never computed.
-/
def toMagnitude (d : Decimal) : Magnitude :=
  if d.digits = 0 then .zero
  else if 39 < d.point then .infinity
  else if d.point < -45 then .zero
  else if 0 ≤ d.exponent then .nearest ((d.digits * powerOfTen d.exponent.toNat) <<< 149) 1
  else .nearest (d.digits <<< 149) (powerOfTen (-d.exponent).toNat)

end Decimal

end Nodeflow
