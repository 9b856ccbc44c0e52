import Nodeflow.Proofs.Builtin.Operation
import Nodeflow.Proofs.Tree.Offered

/-!
# The values of ports

What a tree means can be read off the tree itself: a port of the input node has the value of an
argument, an input has the value at the other end of its connection or its default value, and an
output of a builtin node has a result of the node's operation.
-/

namespace Nodeflow

def Operation.ofNodeTypes : List (String × Operation) :=
  [(Idname.addFloats, .arithmetic "Add Floats" .add),
    (Idname.subtractFloats, .arithmetic "Subtract Floats" .subtract),
    (Idname.multiplyFloats, .arithmetic "Multiply Floats" .multiply),
    (Idname.divideFloats, .arithmetic "Divide Floats" .divide),
    (Idname.combineVector, .combineVector),
    (Idname.separateVector, .separateVector),
    (Idname.switchFloat, .switch),
    (Idname.floatListSum, .listSum),
    (Idname.floatRange, .range)]

namespace Inserters

theorem builtinFunctions_eq : builtinFunctions = Operation.ofNodeTypes.map fun e => (e.1, e.2.function) := rfl

theorem exists_ofNodeTypes {name : String} {f : Function} (h : (name, f) ∈ builtinFunctions) :
    ∃ op, (name, op) ∈ Operation.ofNodeTypes ∧ f = op.function := by
  rw [builtinFunctions_eq] at h
  obtain ⟨⟨name', op⟩, hmem, he⟩ := List.mem_map.mp h
  cases he
  exact ⟨op, hmem, rfl⟩

theorem eq_function_of_mem {name : String} {f : Function} {op : Operation} (h : (name, f) ∈ builtinFunctions)
    (hop : (name, op) ∈ Operation.ofNodeTypes) : f = op.function := by
  have hmem : (name, op.function) ∈ builtinFunctions := by
    rw [builtinFunctions_eq]
    exact List.mem_map_of_mem (f := fun e : String × Operation => (e.1, e.2.function)) hop
  exact congrArg Prod.snd (List.inj_on_of_nodup_map Lower.nodup_builtinNames h hmem rfl)

end Inserters

/-- A number becomes the other kind of number where that is wanted: the nearest float, or the float cut off. -/
def Value.converted : Value → ValueType → Value
  | .int n, .float => .float (.ofInt n.toInt)
  | .float x, .int => .int x.toInt32
  | v, _ => v

/-- The value of an input that nothing leads to: its default value, or the one of its type. -/
def PortSpec.resting (p : PortSpec) (type : ValueType) : Value :=
  ((p.defaultValue.map PortValue.toValue).filter fun v => v.type = type).getD type.default

theorem portValue_eq_resting (p : PortSpec) (type : ValueType) : Lower.portValue p type = p.resting type := by
  unfold Lower.portValue PortSpec.resting
  cases p.defaultValue.map PortValue.toValue with
  | none => rfl
  | some v => by_cases h : v.type = type <;> simp [Option.filter, h]

namespace Tree

/-- A connection brings data to an input: it does not come from a placeholder. -/
def Brings (t : Tree) (c : Connection) (target : Endpoint) : Prop :=
  c ∈ t.connections.values ∧ c.target = target ∧ ∃ q, t.Holds c.source q ∧ q.type ≠ .extend

/-- The value of a port, for some arguments. -/
inductive Valued (t : Tree) (args : List Value) : Endpoint → Value → Prop
  | argument {n : Node} {p : Port} {k : Nat} {v : Value} (hn : n ∈ t.nodes.values)
      (hid : n.idname = Idname.functionInput) (hp : n.outputs.dropLast[k]? = some p) (hv : args[k]? = some v) :
      Valued t args ⟨n.id, p.id⟩ v
  | connected {n : Node} {p : Port} {c : Connection} {type : ValueType} {v : Value} (hn : n ∈ t.nodes.values)
      (hp : p ∈ n.inputs) (htype : p.type.valueType? = some type) (hc : t.Brings c ⟨n.id, p.id⟩)
      (hv : Valued t args c.source v) : Valued t args ⟨n.id, p.id⟩ (v.converted type)
  | resting {n : Node} {p : Port} {type : ValueType} (hn : n ∈ t.nodes.values) (hp : p ∈ n.inputs)
      (htype : p.type.valueType? = some type) (hnone : ∀ c, ¬t.Brings c ⟨n.id, p.id⟩) :
      Valued t args ⟨n.id, p.id⟩ (p.resting type)
  | operation {n : Node} {op : Operation} {xs ys : List Value} {q : Port} {k : Nat} {v : Value}
      (hn : n ∈ t.nodes.values) (hop : (n.idname, op) ∈ Operation.ofNodeTypes) (hlen : xs.length = n.inputs.length)
      (hxs : ∀ (i : Nat) p x, n.inputs[i]? = some p → xs[i]? = some x → Valued t args ⟨n.id, p.id⟩ x)
      (hys : op.apply xs = some ys) (hq : n.outputs[k]? = some q) (hv : ys[k]? = some v) :
      Valued t args ⟨n.id, q.id⟩ v

/-- The ports that the results of a tree's function come from: the declared inputs of the output node. -/
def resultPorts (t : Tree) : List Endpoint :=
  ((t.nodesOfType Idname.functionOutput).head?.map fun n => n.inputs.dropLast.map fun p => ⟨n.id, p.id⟩).getD []

end Tree

end Nodeflow
