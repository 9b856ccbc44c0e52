/-!
# 32-bit binary floating-point numbers

A number is a sign and the rank of its magnitude among all magnitudes: rank `0` is zero, the next
ranks are the positive numbers in increasing order, and the last rank is infinity. Of what is not a
number only the sign is kept; it is there to be stored, and no arithmetic depends on it.

Every finite magnitude is a whole multiple of `2⁻¹⁴⁹` (`units`), so sums, products, quotients and
conversions are computed exactly, as a ratio of natural numbers in that unit, and rounded once
(`nearest`): to the nearest magnitude, and halfway to the one with the even rank.
-/

namespace Nodeflow

/-- How many magnitudes lie between two neighbouring powers of two. -/
abbrev binade : Nat := 0x800000

/-- The rank of infinity, the largest magnitude. -/
abbrev infinityRank : Nat := 0x7F800000

/-- A magnitude, given by its rank among all magnitudes in increasing order. -/
abbrev Magnitude := Fin (infinityRank + 1)

/-- A 32-bit float: a signed magnitude, or something signed that is not a number. -/
inductive Binary32 where
  | nan (negative : Bool)
  | number (negative : Bool) (magnitude : Magnitude)
  deriving DecidableEq, Repr, Inhabited

namespace Magnitude

def zero : Magnitude := ⟨0, by decide⟩

/-- The magnitude beyond every finite one. -/
def infinity : Magnitude := ⟨infinityRank, by decide⟩

def isInfinite (m : Magnitude) : Bool := m.val == infinityRank

/-- The value of a finite magnitude, counted in units of `2⁻¹⁴⁹`. -/
def units (m : Magnitude) : Nat :=
  if m.val < binade then m.val else (binade + m.val % binade) <<< (m.val / binade - 1)

/-- The quotient rounded to the nearest whole number, halves to the even one. -/
def divideToEven (n d : Nat) : Nat :=
  let quotient := n / d
  let remainder := n % d
  if 2 * remainder < d then quotient
  else if d < 2 * remainder then quotient + 1
  else quotient + quotient % 2

/--
The magnitude nearest to `n / d` units, ties to the even rank. Within one power of two the
magnitudes are equally spaced, so the rank is the rounded multiple of that spacing, counted from
the start of the binade.
-/
def nearest (n d : Nat) : Magnitude :=
  let shift := Nat.log2 (n / d) - 23
  let rank := shift * binade + divideToEven n (d <<< shift)
  ⟨min rank infinityRank, by omega⟩

end Magnitude

namespace Binary32

open Magnitude

def zero : Binary32 := .number false .zero

def one : Binary32 := .number false 0x3F800000

/-- Negative zero, which every number keeps when added to it. -/
def negativeZero : Binary32 := .number true .zero

/-- The result of an operation that has no number for a result. -/
def undefined : Binary32 := .nan false

def ofBits (bits : UInt32) : Binary32 :=
  let rank := bits.toNat % 0x80000000
  let negative : Bool := 0x80000000 ≤ bits.toNat
  if h : rank < infinityRank + 1 then .number negative ⟨rank, h⟩ else .nan negative

/-- The 32-bit pattern of a number; what is not a number has many and gives none. -/
def toBits? : Binary32 → Option UInt32
  | .nan _ => none
  | .number negative magnitude =>
    some (UInt32.ofNat (magnitude.val + if negative then 0x80000000 else 0))

def isZero : Binary32 → Bool
  | .nan _ => false
  | .number _ magnitude => magnitude == .zero

/-- Numeric equality: both zeros agree, and what is not a number differs from everything. -/
def numericEq : Binary32 → Binary32 → Bool
  | .number s a, .number t b => (a == .zero && b == .zero) || (s == t && a == b)
  | _, _ => false

def signedUnits (negative : Bool) (magnitude : Magnitude) : Int :=
  if negative then -(magnitude.units : Int) else magnitude.units

def neg : Binary32 → Binary32
  | .nan negative => .nan (!negative)
  | .number negative magnitude => .number (!negative) magnitude

/--
The rounded sum. A sum that is exactly zero is positive unless both addends are negative, and two
infinities of different sign have no sum.
-/
def add : Binary32 → Binary32 → Binary32
  | .number s a, .number t b =>
    if a.isInfinite then
      if b.isInfinite && s != t then undefined else .number s a
    else if b.isInfinite then .number t b
    else
      let sum := signedUnits s a + signedUnits t b
      if sum = 0 then .number (s && t) .zero else .number (sum < 0) (nearest sum.natAbs 1)
  | _, _ => undefined

def sub (x y : Binary32) : Binary32 := x.add y.neg

/-- The rounded product; zero times infinity has none. -/
def mul : Binary32 → Binary32 → Binary32
  | .number s a, .number t b =>
    if a.isInfinite || b.isInfinite then
      if a == .zero || b == .zero then undefined else .number (s != t) infinity
    else .number (s != t) (nearest (a.units * b.units) (1 <<< 149))
  | _, _ => undefined

/-- The rounded quotient; zero by zero and infinity by infinity have none. -/
def div : Binary32 → Binary32 → Binary32
  | .number s a, .number t b =>
    if a.isInfinite then
      if b.isInfinite then undefined else .number (s != t) infinity
    else if b.isInfinite then .number (s != t) .zero
    else if b == .zero then
      if a == .zero then undefined else .number (s != t) infinity
    else .number (s != t) (nearest (a.units <<< 149) b.units)
  | _, _ => undefined

instance : Neg Binary32 := ⟨neg⟩
instance : Add Binary32 := ⟨add⟩
instance : Sub Binary32 := ⟨sub⟩
instance : Mul Binary32 := ⟨mul⟩
instance : Div Binary32 := ⟨div⟩

/-- The float nearest to a whole number. -/
def ofInt (i : Int) : Binary32 := .number (i < 0) (nearest (i.natAbs <<< 149) 1)

/--
The whole number a float is cut to, toward zero. Values beyond the range stop at its ends, and what
is not a number becomes zero.
-/
def toInt32 : Binary32 → Int32
  | .nan _ => 0
  | .number negative magnitude =>
    if magnitude.isInfinite then if negative then Int32.minValue else Int32.maxValue
    else
      let whole : Int := magnitude.units >>> 149
      if negative then if 0x80000000 ≤ whole then Int32.minValue else Int32.ofInt (-whole)
      else if 0x80000000 ≤ whole then Int32.maxValue else Int32.ofInt whole

/-- The sum from left to right. It starts at negative zero, which is also the sum of no terms. -/
def sum (terms : List Binary32) : Binary32 := terms.foldl add negativeZero

end Binary32

end Nodeflow
