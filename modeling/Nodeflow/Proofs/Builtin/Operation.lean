import Nodeflow.Builtin.All
import Nodeflow.Builtin.Constant
import Nodeflow.Function.Dependencies
import Nodeflow.Proofs.Function.Context
import Nodeflow.Proofs.Tuple

/-!
# What builtin functions compute

The builtin functions, the conversions and the constants are operations on values. An operation is
defined for all arguments of its types, and gives results of its types.
-/

namespace Nodeflow

open Eval

/-- What a function without a tree of its own computes. -/
inductive Operation where
  | arithmetic (name : String) (op : BinaryOp)
  | combineVector
  | separateVector
  | switch
  | listSum
  | range
  | intToFloat
  | floatToInt
  | constant (value : Value)

/-- Values have the types of parameters. -/
def Typed (vs : List Value) (parameters : Array Parameter) : Prop :=
  List.Forall₂ (fun v p => v.type = p.type) vs parameters.toList

theorem Typed.length_eq {vs : List Value} {parameters : Array Parameter} (h : Typed vs parameters) :
    vs.length = parameters.size := by
  rw [List.Forall₂.length_eq h, Array.length_toList]

namespace Operation

def function : Operation → Function
  | arithmetic name op => Builtin.floatArithmetic name op
  | combineVector => Builtin.combineVector
  | separateVector => Builtin.separateVector
  | switch => Builtin.switchFloat
  | listSum => Builtin.floatListSum
  | range => Builtin.floatRange
  | intToFloat => Builtin.intToFloat
  | floatToInt => Builtin.floatToInt
  | constant value => Builtin.constant value

def apply : Operation → List Value → Option (List Value)
  | arithmetic _ op, [.float a, .float b] => some [.float (op.apply a b)]
  | combineVector, [.float x, .float y, .float z] => some [.vector3 x y z]
  | separateVector, [.vector3 x y z] => some [.float x, .float y, .float z]
  | switch, [.bool condition, .float a, .float b] => some [.float (if condition then a else b)]
  | listSum, [.floatList xs] => some [.float (.sum xs)]
  | range, [.int amount, .float start, .float step] => some [.floatList (floatRange amount start step)]
  | intToFloat, [.int n] => some [.float (.ofInt n.toInt)]
  | floatToInt, [.float x] => some [.int x.toInt32]
  | constant value, [] => some [value]
  | _, _ => none

end Operation

namespace Value

variable {v : Value}

theorem exists_float (h : v.type = .float) : ∃ x, v = .float x := by
  cases v with
  | float x => exact ⟨x, rfl⟩
  | _ => cases h

theorem exists_int (h : v.type = .int) : ∃ n, v = .int n := by
  cases v with
  | int n => exact ⟨n, rfl⟩
  | _ => cases h

theorem exists_bool (h : v.type = .bool) : ∃ b, v = .bool b := by
  cases v with
  | bool b => exact ⟨b, rfl⟩
  | _ => cases h

theorem exists_vector3 (h : v.type = .vector3) : ∃ x y z, v = .vector3 x y z := by
  cases v with
  | vector3 x y z => exact ⟨x, y, z, rfl⟩
  | _ => cases h

theorem exists_floatList (h : v.type = .floatList) : ∃ xs, v = .floatList xs := by
  cases v with
  | floatList xs => exact ⟨xs, rfl⟩
  | _ => cases h

end Value

namespace Operation

variable {op : Operation} {xs ys : List Value}

theorem typed_of_apply (h : op.apply xs = some ys) : Typed xs op.function.inputs := by
  unfold apply at h
  split at h
  · exact .cons rfl (.cons rfl .nil)
  · exact .cons rfl (.cons rfl (.cons rfl .nil))
  · exact .cons rfl .nil
  · exact .cons rfl (.cons rfl (.cons rfl .nil))
  · exact .cons rfl .nil
  · exact .cons rfl (.cons rfl (.cons rfl .nil))
  · exact .cons rfl .nil
  · exact .cons rfl .nil
  · exact .nil
  · cases h

/-- An operation has results on all arguments of its types, and they have the types of its results. -/
theorem exists_apply (h : Typed xs op.function.inputs) :
    ∃ ys, op.apply xs = some ys ∧ Typed ys op.function.outputs := by
  cases op with
  | arithmetic name op =>
      rcases h with _ | ⟨ha, _ | ⟨hb, _ | _⟩⟩
      obtain ⟨a, rfl⟩ := Value.exists_float ha
      obtain ⟨b, rfl⟩ := Value.exists_float hb
      exact ⟨_, rfl, .cons rfl .nil⟩
  | combineVector =>
      rcases h with _ | ⟨hx, _ | ⟨hy, _ | ⟨hz, _ | _⟩⟩⟩
      obtain ⟨x, rfl⟩ := Value.exists_float hx
      obtain ⟨y, rfl⟩ := Value.exists_float hy
      obtain ⟨z, rfl⟩ := Value.exists_float hz
      exact ⟨_, rfl, .cons rfl .nil⟩
  | separateVector =>
      rcases h with _ | ⟨hv, _ | _⟩
      obtain ⟨x, y, z, rfl⟩ := Value.exists_vector3 hv
      exact ⟨_, rfl, .cons rfl (.cons rfl (.cons rfl .nil))⟩
  | switch =>
      rcases h with _ | ⟨hc, _ | ⟨ha, _ | ⟨hb, _ | _⟩⟩⟩
      obtain ⟨c, rfl⟩ := Value.exists_bool hc
      obtain ⟨a, rfl⟩ := Value.exists_float ha
      obtain ⟨b, rfl⟩ := Value.exists_float hb
      exact ⟨_, rfl, .cons rfl .nil⟩
  | listSum =>
      rcases h with _ | ⟨hl, _ | _⟩
      obtain ⟨l, rfl⟩ := Value.exists_floatList hl
      exact ⟨_, rfl, .cons rfl .nil⟩
  | range =>
      rcases h with _ | ⟨hn, _ | ⟨ha, _ | ⟨hd, _ | _⟩⟩⟩
      obtain ⟨n, rfl⟩ := Value.exists_int hn
      obtain ⟨a, rfl⟩ := Value.exists_float ha
      obtain ⟨d, rfl⟩ := Value.exists_float hd
      exact ⟨_, rfl, .cons rfl .nil⟩
  | intToFloat =>
      rcases h with _ | ⟨hn, _ | _⟩
      obtain ⟨n, rfl⟩ := Value.exists_int hn
      exact ⟨_, rfl, .cons rfl .nil⟩
  | floatToInt =>
      rcases h with _ | ⟨hx, _ | _⟩
      obtain ⟨x, rfl⟩ := Value.exists_float hx
      exact ⟨_, rfl, .cons rfl .nil⟩
  | constant value =>
      cases h
      exact ⟨_, rfl, .cons rfl .nil⟩

theorem size_outputs_le (op : Operation) : op.function.outputs.size ≤ 3 := by
  cases op with
  | separateVector => exact Nat.le_refl 3
  | _ => exact Nat.le_of_ble_eq_true rfl

theorem reads_eq (op : Operation) {position : Nat} (h : position < op.function.outputs.size) :
    op.function.reads position = .ok (List.range op.function.inputs.size) := by
  have hd : op.function.dependencies? = some .allInputs := by
    cases op <;> rfl
  rw [Function.reads, hd]
  dsimp only [Function.dependenciesOf]
  rw [if_pos h]

end Operation

end Nodeflow
