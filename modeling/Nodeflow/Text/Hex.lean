/-!
# Hexadecimal digits

Digits above nine are the letters from `a` to `f`, in either case.
-/

namespace Nodeflow.Text

def hexValue? (c : Char) : Option Nat :=
  if '0' ≤ c && c ≤ '9' then some (c.toNat - '0'.toNat)
  else if 'a' ≤ c && c ≤ 'f' then some (c.toNat - 'a'.toNat + 10)
  else if 'A' ≤ c && c ≤ 'F' then some (c.toNat - 'A'.toNat + 10)
  else none

/-- The number that digits write in a base, if all of them are digits of that base. -/
def digitsValue? (base : Nat) (digits : List Char) : Option Nat :=
  digits.foldlM
    (fun n c => (hexValue? c).bind fun d => if d < base then some (base * n + d) else none) 0

end Nodeflow.Text
