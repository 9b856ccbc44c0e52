import Nodeflow.Decimal.Basic

/-!
# The shortest decimal that reads back

A finite positive magnitude is written with the fewest digits from which `Decimal.toMagnitude`
recovers it. On the grid of decimals with a given number of digits only the two neighbours of the
value can qualify, because the decimals that read back surround it; of two, the nearer one is
taken, and the upper one when both are equally near. The result reads back by construction.
-/

namespace Nodeflow.Magnitude

/-- The decimal point of a finite positive magnitude: the value lies in `[10 ^ (p - 1), 10 ^ p)`. -/
def decimalPoint (m : Magnitude) : Int :=
  (Decimal.length ((m.units * Decimal.powerOfTen 46) >>> 149) : Int) - 46

def overPowerOfTen (m : Magnitude) (exponent : Int) : Nat × Nat :=
  if exponent ≤ 0 then (m.units * Decimal.powerOfTen (-exponent).toNat, 1 <<< 149)
  else (m.units, Decimal.powerOfTen exponent.toNat <<< 149)

def readsFrom (m : Magnitude) (d : Decimal) : Bool := d.toMagnitude == m

/-- Of two neighbours of the value the one that reads back; of two that do, the nearer one. -/
def betterNeighbour? (m : Magnitude) (lower upper : Decimal) (lowerIsNearer : Bool) : Option Decimal :=
  match m.readsFrom lower, m.readsFrom upper with
  | true, true => some (if lowerIsNearer then lower else upper)
  | true, false => some lower
  | false, true => some upper
  | false, false => none

def withDigits? (m : Magnitude) (count : Nat) : Option Decimal :=
  let exponent := m.decimalPoint - count
  let ratio := m.overPowerOfTen exponent
  let lower := ratio.1 / ratio.2
  m.betterNeighbour? ⟨lower, exponent⟩ ⟨lower + 1, exponent⟩ (2 * (ratio.1 % ratio.2) < ratio.2)

/-- The value itself, written with all its digits. -/
def exactDecimal (m : Magnitude) : Decimal := ⟨m.units * Nat.pow 5 149, -149⟩

/-- The shortest decimal that reads as the magnitude, which is finite and positive. -/
def shortest (m : Magnitude) : Decimal :=
  ((List.range 9).findSome? fun k => m.withDigits? (k + 1)).getD m.exactDecimal

end Nodeflow.Magnitude
