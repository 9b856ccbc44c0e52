import Nodeflow.Lowering.Tree
import Nodeflow.Proofs.DataGraph.Growing
import Nodeflow.Proofs.Lowering.Running

/-!
# The nodes behind those of the tree

A data graph has a node for each node of the tree, then a conversion for each link between a whole
number and a float, and then a constant for each input without a source. The links are taken in the
order of their targets, and the inputs in the order of the sockets.
-/

namespace Nodeflow

open DataGraphBuilder

def DataSocket.isInput : DataSocket → Bool
  | input _ => true
  | output _ => false

def DataSocket.isOutput (s : DataSocket) : Bool := !s.isInput

namespace Snapshot

variable (tree : Snapshot) (mapped : Nat → Option DataSocket)

def valueType? (i : Nat) : Option ValueType := (tree.sockets[i]?).bind fun socket => socket.port.type.valueType?

/-- One of two sockets has whole numbers and the other one has floats. -/
def crosses (a i : Nat) : Bool :=
  tree.valueType? a = some .int && tree.valueType? i = some .float ||
    tree.valueType? a = some .float && tree.valueType? i = some .int

/-- The other ends of a socket's links, where they stand for data outputs. -/
def mappedSources (i : Nat) : List Nat :=
  ((tree.sockets[i]?).elim [] SnapshotSocket.links).filter fun a => (mapped a).any DataSocket.isOutput

/-- The input sockets before a number that stand for data inputs. -/
def mappedInputs (bound : Nat) : List Nat :=
  (List.range bound).filter fun i => (tree.sockets[i]?).any SnapshotSocket.isInput && (mapped i).any DataSocket.isInput

/-- The links between whole numbers and floats that lead to the input sockets before a number. -/
def conversions (bound : Nat) : List (Nat × Nat) :=
  (tree.mappedInputs mapped bound).flatMap fun i =>
    ((tree.mappedSources mapped i).filter fun a => tree.crosses a i).map fun a => (a, i)

/-- The input sockets before a number that no data output supplies. -/
def unsupplied (bound : Nat) : List Nat :=
  (tree.mappedInputs mapped bound).filter fun i => (tree.mappedSources mapped i).isEmpty

variable {tree mapped} {a i : Nat} {socket : SnapshotSocket} {source target : ValueType}

theorem crosses_eq (hs : tree.valueType? a = some source) (ht : tree.valueType? i = some target) :
    tree.crosses a i = (Builtin.conversion? source target).isSome := by
  rw [crosses, hs, ht]
  cases source <;> cases target <;> rfl

theorem mappedInputs_succ (h : (tree.sockets[i]?).any SnapshotSocket.isInput && (mapped i).any DataSocket.isInput) :
    tree.mappedInputs mapped (i + 1) = tree.mappedInputs mapped i ++ [i] := by
  rw [mappedInputs, List.range_succ, List.filter_append, List.filter_singleton, h]
  rfl

theorem mappedInputs_succ_skip (hs : tree.sockets[i]? = some socket)
    (h : ∀ s, socket.isInput → mapped i ≠ some (.input s)) :
    tree.mappedInputs mapped (i + 1) = tree.mappedInputs mapped i := by
  have hnot : ((tree.sockets[i]?).any SnapshotSocket.isInput && (mapped i).any DataSocket.isInput) = false := by
    rw [Bool.and_eq_false_imp, hs]
    intro hin
    cases hi : mapped i with
    | none => rfl
    | some place =>
        cases place with
        | input s => exact absurd hi (h s hin)
        | output o => rfl
  rw [mappedInputs, List.range_succ, List.filter_append, List.filter_singleton, hnot]
  exact List.append_nil _

theorem conversions_succ (h : (tree.sockets[i]?).any SnapshotSocket.isInput && (mapped i).any DataSocket.isInput) :
    tree.conversions mapped (i + 1) = tree.conversions mapped i ++
      ((tree.mappedSources mapped i).filter fun a => tree.crosses a i).map fun a => (a, i) := by
  rw [conversions, mappedInputs_succ h, List.flatMap_append, List.flatMap_singleton]
  rfl

theorem unsupplied_succ (h : (tree.sockets[i]?).any SnapshotSocket.isInput && (mapped i).any DataSocket.isInput) :
    tree.unsupplied mapped (i + 1) = tree.unsupplied mapped i ++
      if (tree.mappedSources mapped i).isEmpty then [i] else [] := by
  rw [unsupplied, mappedInputs_succ h, List.filter_append, List.filter_singleton, Bool.cond_eq_ite]
  rfl

end Snapshot

namespace Lower

variable {α : Type} {P : Draft → Nat → α → Prop} {first : Nat} {xs : List α} {x : α} {d d' : Draft}

/-- The nodes from a number on have been added for the items of a list. -/
structure Appends (P : Draft → Nat → α → Prop) (first : Nat) (xs : List α) (d : Draft) : Prop where
  size : d.builder.nodes.size = first + xs.length
  added : ∀ {k : Nat} {x : α}, xs[k]? = some x → P d (first + k) x

theorem Appends.mono (h : Appends P first xs d) (hsize : d'.builder.nodes.size = d.builder.nodes.size)
    (hP : ∀ n x, P d n x → P d' n x) : Appends P first xs d' :=
  ⟨hsize.trans h.size, fun hx => hP _ _ (h.added hx)⟩

theorem Appends.concat (h : Appends P first xs d) (hsize : d'.builder.nodes.size = d.builder.nodes.size + 1)
    (hP : ∀ n x, P d n x → P d' n x) (hx : P d' d.builder.nodes.size x) : Appends P first (xs ++ [x]) d' := by
  refine ⟨?_, fun {k y} hy => ?_⟩
  · rw [hsize, h.size, List.length_append, List.length_singleton, Nat.add_assoc]
  · by_cases hk : k < xs.length
    · rw [List.getElem?_append_left hk] at hy
      exact hP _ _ (h.added hy)
    · rw [List.getElem?_append_right (Nat.le_of_not_lt hk)] at hy
      obtain ⟨hlt, rfl⟩ := List.getElem?_eq_some_iff.mp hy
      obtain rfl : k = xs.length := by
        rw [List.length_singleton] at hlt
        omega
      rw [← h.size]
      simpa using hx

/-- A node converts what goes through a link. -/
inductive Converts (d : Draft) (n : Nat) (link : Nat × Nat) : Prop
  | node {o : OutputSocket} {s : InputSocket} {entry : NodeEntry} {source target : ValueType}
      (ho : d.socket? link.1 = some (.output o)) (hi : d.socket? link.2 = some (.input s))
      (hn : d.builder.nodes[n]? = some entry) (hnone : entry.source = none)
      (hs : d.builder.outputType o = .ok source) (ht : d.builder.inputType s = .ok target)
      (hf : Builtin.conversion? source target = some entry.function)
      (hin : HasOrigin d.builder ⟨entry.firstInput⟩ o) (hout : HasOrigin d.builder s ⟨entry.firstOutput⟩)

/-- A node gives an input socket the value of its port. -/
inductive Supplies (tree : Snapshot) (d : Draft) (n i : Nat) : Prop
  | node {s : InputSocket} {socket : SnapshotSocket} {owner : SnapshotNode} {entry : NodeEntry} {type : ValueType}
      (hi : d.socket? i = some (.input s)) (hsocket : tree.sockets[i]? = some socket)
      (howner : tree.nodes[socket.node]? = some owner) (hn : d.builder.nodes[n]? = some entry)
      (hsource : entry.source = some ⟨tree.name, owner.name⟩) (ht : d.builder.inputType s = .ok type)
      (hf : entry.function = Builtin.constant (portValue socket.port.toPortSpec type))
      (ho : HasOrigin d.builder s ⟨entry.firstOutput⟩)

theorem Converts.extends {n : Nat} {link : Nat × Nat} (h : Converts d n link) (hs : d'.sockets = d.sockets)
    (hext : Extends d.builder d'.builder) : Converts d' n link := by
  obtain ⟨ho, hi, hn, hnone, hsource, ht, hf, hin, hout⟩ := h
  exact .node (by rwa [Draft.socket?, hs]) (by rwa [Draft.socket?, hs]) (hext.nodes hn) hnone
    (hext.outputType hsource) (hext.inputType ht) hf (hext.hasOrigin hin) (hext.hasOrigin hout)

theorem Supplies.extends {tree : Snapshot} {n i : Nat} (h : Supplies tree d n i) (hs : d'.sockets = d.sockets)
    (hext : Extends d.builder d'.builder) : Supplies tree d' n i := by
  obtain ⟨hi, hsocket, howner, hn, hsource, ht, hf, ho⟩ := h
  exact .node (by rwa [Draft.socket?, hs]) hsocket howner (hext.nodes hn) hsource (hext.inputType ht) hf
    (hext.hasOrigin ho)

end Lower

end Nodeflow
