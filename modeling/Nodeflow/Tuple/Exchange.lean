import Nodeflow.Tuple

/-!
# Where the values of a tuple go

Every operation on a tuple is an exchange: it accepts values from its caller, hands values back and
destroys values. A value that is refused is destroyed, and so is one that was taken out to be handed
back as another type than it has. Hence a value that was given to a tuple is in it, has been handed
back, or has been destroyed.
-/

namespace Nodeflow.Tuple

/-- An operation that moves values into or out of a tuple. -/
inductive Operation where
  | put (i : Nat) (v : Value)
  /-- Stores a copy of a value, which its owner keeps. -/
  | copy (i : Nat) (v : Value)
  | take (i : Nat)
  | takeAs (i : Nat) (type : ValueType)
  | fillDefaults
  /-- Destroys all values, and tells how many. -/
  | clear
  /-- Hands all values back; the tuple is used up. -/
  | intoValues
  deriving DecidableEq, Repr

structure Exchange where
  /-- The values handed back, or the rule that was broken. -/
  result : Except Fault (List Value)
  /-- The number that the operation reports, if it reports one. -/
  count : Option Nat := none
  destroyed : List Value := []
  tuple : Tuple

namespace Exchange

def returned (x : Exchange) : List Value := x.result.toOption.getD []

/-- The values that have left the tuple or never came into it. -/
def gone (x : Exchange) : List Value := x.destroyed ++ x.returned

end Exchange

def Operation.run (t : Tuple) : Operation → Exchange
  | put i v | copy i v =>
    match t.put i v with
    | .ok (old, tuple) => { result := .ok [], destroyed := old.toList, tuple }
    | .error fault => { result := .error fault, destroyed := [v], tuple := t }
  | take i =>
    match t.take i with
    | .ok (v, tuple) => { result := .ok [v], tuple }
    | .error fault => { result := .error fault, tuple := t }
  | takeAs i type =>
    match t.take i with
    | .ok (v, tuple) =>
      if v.type = type then { result := .ok [v], tuple }
      else { result := .error (.elementReadAs i type), destroyed := [v], tuple }
    | .error fault => { result := .error fault, tuple := t }
  | fillDefaults => { result := .ok [], tuple := t.fillDefaults }
  | clear =>
    let (destroyed, tuple) := t.destroyAll
    { result := .ok [], count := some destroyed, destroyed := t.values, tuple }
  | intoValues =>
    match t.intoValues with
    | .ok values => { result := .ok values, tuple := t.clear }
    | .error fault => { result := .error fault, destroyed := t.values, tuple := t.clear }

end Nodeflow.Tuple
