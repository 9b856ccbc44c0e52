import Nodeflow.Fault

/-!
# Tuples

A tuple has a fixed layout: every element has a name and a type, and is either empty or holds a
value of that type. Storing a value of another type, reading an empty element and going past the
end are faults. Operations that take a value out of the tuple return it, so that every value given
to a tuple is at each moment in one element, with the caller, or destroyed.
-/

namespace Nodeflow

/-- An element of a tuple: its parameter, and its value if it has one. -/
structure Slot where
  parameter : Parameter
  content : Option Value := none
  deriving Repr, Inhabited

/-- Elements of a fixed layout, each empty or filled. -/
structure Tuple where
  slots : Array Slot
  deriving Repr, Inhabited

namespace Tuple

def new (layout : Array Parameter) : Tuple := ⟨layout.map fun p => ⟨p, none⟩⟩

/-- A layout whose elements are named by their position. -/
def unnamedLayout (types : List ValueType) : Array Parameter :=
  (types.zipIdx.map fun (type, i) => ⟨toString i, type⟩).toArray

def layout (t : Tuple) : Array Parameter := t.slots.map Slot.parameter

def size (t : Tuple) : Nat := t.slots.size

def contents (t : Tuple) : List (Option Value) := t.slots.toList.map Slot.content

def values (t : Tuple) : List Value := t.contents.filterMap id

def replace (t : Tuple) (i : Nat) (content : Option Value) : Tuple :=
  ⟨t.slots.modify i fun slot => { slot with content }⟩

def value? (t : Tuple) (i : Nat) : Except Fault (Option Value) :=
  (elementAt t.slots i).map Slot.content

def isFilled (t : Tuple) (i : Nat) : Except Fault Bool := (t.value? i).map Option.isSome

def value (t : Tuple) (i : Nat) : Except Fault Value := do
  let slot ← elementAt t.slots i
  match slot.content with
  | some v => .ok v
  | none => .error (.elementEmpty i slot.parameter.name)

/-- Passes a value of the wanted type on. -/
def expectType (i : Nat) (type : ValueType) (v : Value) : Except Fault Value :=
  if v.type = type then .ok v else .error (.elementReadAs i type)

def valueAs (t : Tuple) (i : Nat) (type : ValueType) : Except Fault Value :=
  t.value i >>= expectType i type

/-- Stores a value, and returns the one that was there. A value of another type is refused. -/
def put (t : Tuple) (i : Nat) (v : Value) : Except Fault (Option Value × Tuple) := do
  let slot ← elementAt t.slots i
  if v.type = slot.parameter.type then .ok (slot.content, t.replace i (some v))
  else .error (.elementType i slot.parameter v.type)

/-- Stores values by their position, and passes over missing ones. -/
def putAll (t : Tuple) (values : List (Option Value)) : Except Fault Tuple :=
  values.zipIdx.foldlM
    (fun t (value?, i) =>
      match value? with
      | some v => (t.put i v).map Prod.snd
      | none => .ok t)
    t

def take (t : Tuple) (i : Nat) : Except Fault (Value × Tuple) := do
  let v ← t.value i
  .ok (v, t.replace i none)

def takeAs (t : Tuple) (i : Nat) (type : ValueType) : Except Fault (Value × Tuple) := do
  let (v, t) ← t.take i
  let v ← expectType i type v
  .ok (v, t)

def allFilled (t : Tuple) : Bool := t.slots.all fun slot => slot.content.isSome

def filledCount (t : Tuple) : Nat := t.slots.countP fun slot => slot.content.isSome

/-- Gives every empty element the value that stands in for its type. -/
def fillDefaults (t : Tuple) : Tuple :=
  ⟨t.slots.map fun slot =>
    { slot with content := some (slot.content.getD slot.parameter.type.default) }⟩

def clear (t : Tuple) : Tuple := ⟨t.slots.map fun slot => { slot with content := none }⟩

/-- Destroys all values, and counts the elements that had one. -/
def destroyAll (t : Tuple) : Nat × Tuple :=
  (t.slots.foldl (fun destroyed slot => if slot.content.isSome then destroyed + 1 else destroyed) 0, t.clear)

/-- All values in order. The first empty element is a fault. -/
def intoValues (t : Tuple) : Except Fault (List Value) :=
  (List.range t.size).mapM t.value

end Tuple

end Nodeflow
