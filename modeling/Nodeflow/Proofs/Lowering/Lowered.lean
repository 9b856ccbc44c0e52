import Nodeflow.Proofs.DataGraph.Building
import Nodeflow.Proofs.Lowering.Constants
import Nodeflow.Proofs.Lowering.Inserting

/-!
# Lowering whole trees

Lowering a tree never ends in a fault. It gives a data graph in which every node of the tree has one
node and every input of the tree has its source or its value, or it is refused for a reason.
-/

namespace Nodeflow

open DataGraphBuilder

namespace Lower

open Inserters

variable {R : Prop} {tree : Snapshot} {config : Config} {nodes : List Node} {d d' : Draft} {i : Nat}

/-- The tree has at most one node of each interface type. -/
def Single (tree : Snapshot) (config : Config) : Prop :=
  ∀ idname ∈ [config.inputNode, config.outputNode], (tree.nodesOfType idname).length ≤ 1

theorem Ends.checkInterface (hR : ¬Single tree config → R) :
    Ends R (Lower.checkInterface tree config) d fun _ d' => d = d' ∧ Single tree config := by
  refine Ends.forM (fun before d' => d = d' ∧ ∀ idname ∈ before, (tree.nodesOfType idname).length ≤ 1)
    ⟨rfl, by simp⟩ ?_
  rintro before idname after _ hsplit ⟨rfl, hbefore⟩
  dsimp only
  split
  · rename_i hlt
    exact .throw (hR fun hsingle => absurd (hsingle idname (by simp [hsplit])) (by omega))
  · rename_i hle
    refine .pure ⟨rfl, fun name hname => ?_⟩
    rcases List.mem_append.mp hname with h | h
    · exact hbefore name h
    · rw [List.mem_singleton.mp h]
      omega

/-! ## Nodes for nodes -/

/-- Every node of the tree has a data node under its number. -/
def Represented (tree : Snapshot) (config : Config) (d : Draft) : Prop :=
  ∀ (j : Nat) (node : SnapshotNode), tree.nodes[j]? = some node →
    ∃ entry, d.builder.nodes[j]? = some entry ∧ Stands tree config d node entry

/-- A data socket has the place in its node that a socket of the tree has there. -/
inductive Place (tree : Snapshot) (d : Draft) (i : Nat) : DataSocket → Prop
  | input {j k : Nat} {node : SnapshotNode} {entry : NodeEntry} (hn : tree.nodes[j]? = some node)
      (he : d.builder.nodes[j]? = some entry) (hi : node.inputs[k]? = some i) (hk : k < entry.inputCount) :
      Place tree d i (.input ⟨entry.firstInput + k⟩)
  | output {j k : Nat} {node : SnapshotNode} {entry : NodeEntry} (hn : tree.nodes[j]? = some node)
      (he : d.builder.nodes[j]? = some entry) (hi : node.outputs[k]? = some i) (hk : k < entry.outputCount) :
      Place tree d i (.output ⟨entry.firstOutput + k⟩)

theorem Represented.place (h : Represented tree config d) (hc : tree.Copies nodes)
    (hsize : d.sockets.size = tree.sockets.size) {s : DataSocket} (hi : d.socket? i = some s) :
    Place tree d i s := by
  have hlt : i < tree.sockets.size := by
    rw [← hsize]
    by_contra hge
    rw [Draft.socket?, Array.getElem?_eq_none (Nat.le_of_not_lt hge)] at hi
    cases hi
  obtain ⟨n, first, k, -, hnode, hk, rfl⟩ :=
    hc.place (Snapshot.getElem?_owners (Array.getElem?_eq_getElem hlt))
  obtain ⟨entry, he, hstands⟩ := h _ _ hnode
  by_cases hin : k < n.inputs.length
  · have hat : (Snapshot.copy tree.sockets[first + k].node n first).inputs[k]? = some (first + k) := by
      simp [Snapshot.copy, hin]
    rw [hstands.input hat] at hi
    split at hi
    · rename_i hk
      cases hi
      exact .input hnode he hat hk
    · cases hi
  · have hk' := (List.getElem?_eq_some_iff.mp hk).1
    rw [Node.ports, List.length_append] at hk'
    have hat : (Snapshot.copy tree.sockets[first + k].node n first).outputs[k - n.inputs.length]? = some (first + k) := by
      rw [Snapshot.copy, List.getElem?_range' (by omega)]
      congr 1
      omega
    rw [hstands.output hat] at hi
    split at hi
    · rename_i hk
      cases hi
      exact .output hnode he hat hk
    · cases hi

theorem Place.injective (hb : Wiring.Numbered d.builder) {i' : Nat} {s : DataSocket} (h : Place tree d i s)
    (h' : Place tree d i' s) : i = i' := by
  cases h with
  | @input j k node entry hn he hi hk =>
      obtain ⟨origin, hat⟩ := hb.input_at he hk
      generalize hs : DataSocket.input ⟨entry.firstInput + k⟩ = s at h'
      cases h' with
      | @input j' k' node' entry' hn' he' hi' hk' =>
          obtain ⟨origin', hat'⟩ := hb.input_at he' hk'
          simp only [DataSocket.input.injEq, InputSocket.mk.injEq] at hs
          rw [← hs, hat] at hat'
          simp only [Option.some.injEq, InputEntry.mk.injEq, DataNode.mk.injEq] at hat'
          obtain ⟨rfl, rfl, -⟩ := hat'
          rw [hn] at hn'
          cases hn'
          rw [hi] at hi'
          exact Option.some.inj hi'
      | output => cases hs
  | @output j k node entry hn he hi hk =>
      obtain ⟨targets, hat⟩ := hb.output_at he hk
      generalize hs : DataSocket.output ⟨entry.firstOutput + k⟩ = s at h'
      cases h' with
      | input => cases hs
      | @output j' k' node' entry' hn' he' hi' hk' =>
          obtain ⟨targets', hat'⟩ := hb.output_at he' hk'
          simp only [DataSocket.output.injEq, OutputSocket.mk.injEq] at hs
          rw [← hs, hat] at hat'
          simp only [Option.some.injEq, OutputEntry.mk.injEq, DataNode.mk.injEq] at hat'
          obtain ⟨rfl, rfl, -⟩ := hat'
          rw [hn] at hn'
          cases hn'
          rw [hi] at hi'
          exact Option.some.inj hi'

theorem Represented.inputType {nodes : List Node} (h : Represented tree config d) (hc : tree.Copies nodes)
    (hsize : d.sockets.size = tree.sockets.size) (hb : Wiring.Numbered d.builder) {s : InputSocket}
    (hi : d.socket? i = some (.input s)) : ∃ type, d.builder.inputType s = .ok type ∧ HasType tree i type := by
  cases h.place hc hsize hi with
  | @input j k node entry hn he hat hk =>
      obtain ⟨entry', he', hstands⟩ := h _ _ hn
      obtain rfl := Option.some.inj (he.symm.trans he')
      obtain ⟨origin, hplace⟩ := hb.input_at he hk
      refine ⟨_, Wiring.inputType_eq_ok_iff.mpr ⟨_, entry, _, hplace, he, Array.getElem?_eq_getElem hk, rfl⟩, ?_⟩
      exact hstands.inserts.inputType hat hk

theorem Represented.outputType {nodes : List Node} (h : Represented tree config d) (hc : tree.Copies nodes)
    (hsize : d.sockets.size = tree.sockets.size) (hb : Wiring.Numbered d.builder) {o : OutputSocket}
    (hi : d.socket? i = some (.output o)) : ∃ type, d.builder.outputType o = .ok type ∧ HasType tree i type := by
  cases h.place hc hsize hi with
  | @output j k node entry hn he hat hk =>
      obtain ⟨entry', he', hstands⟩ := h _ _ hn
      obtain rfl := Option.some.inj (he.symm.trans he')
      obtain ⟨targets, hplace⟩ := hb.output_at he hk
      refine ⟨_, Wiring.outputType_eq_ok_iff.mpr ⟨_, entry, _, hplace, he, Array.getElem?_eq_getElem hk, rfl⟩, ?_⟩
      exact hstands.inserts.outputType hat hk

theorem valueType?_eq_some_iff {type : ValueType} : tree.valueType? i = some type ↔ HasType tree i type :=
  Option.bind_eq_some_iff

theorem Placed.represented (h : Placed tree config tree.nodes.size d) : Represented tree config d :=
  fun _ _ hn => h.stands hn (Array.getElem?_eq_some_iff.mp hn).1

theorem Placed.standing (h : Placed tree config tree.nodes.size d) (hc : tree.Copies nodes) :
    Standing tree tree.nodes.size d := by
  have hplace {i : Nat} {s : DataSocket} (hi : d.socket? i = some s) : Place tree d i s :=
    h.represented.place hc h.size hi
  have hb := h.typed.toNumbered
  refine ⟨h.size, Nat.le_of_eq h.nodes.symm, fun hi hi' => (hplace hi).injective hb (hplace hi'),
    fun hi => ?_, fun hi => ?_⟩
  · obtain ⟨type, ht, hvalue⟩ := h.represented.inputType hc h.size hb hi
    exact ⟨type, ht, valueType?_eq_some_iff.mpr hvalue⟩
  · obtain ⟨type, ht, hvalue⟩ := h.represented.outputType hc h.size hb hi
    cases hplace hi with
    | output hn he _ hk =>
        obtain ⟨targets, hat⟩ := hb.output_at he hk
        exact ⟨⟨type, ht, valueType?_eq_some_iff.mpr hvalue⟩, _, hat, (Array.getElem?_eq_some_iff.mp hn).1⟩

theorem Represented.grows {N m : Nat} (h : Represented tree config d) (hs : d'.sockets = d.sockets)
    (hg : Grows N m d.builder d'.builder) : Represented tree config d' := by
  intro j node hn
  obtain ⟨entry, he, hstands⟩ := h _ _ hn
  refine ⟨entry, hg.keeps.nodes he, hstands.inserts, hstands.source, fun hi => ?_, fun hi => ?_⟩
  · rw [Draft.socket?_eq hs, hstands.input hi]
  · rw [Draft.socket?_eq hs, hstands.output hi]

/-! ## The finished draft -/

/-- All three phases are over: nodes of the tree have nodes, and inputs of the tree have values. -/
structure Completed (tree : Snapshot) (config : Config) (d : Draft) : Prop where
  single : Single tree config
  standing : Standing tree tree.nodes.size d
  typed : WellTyped d.builder
  represented : Represented tree config d
  supplied : ∀ {i : Nat} {socket : SnapshotSocket} {s : InputSocket}, tree.sockets[i]? = some socket →
    d.socket? i = some (.input s) →
      if socket.isInput then Supplied d.builder socket.port.toPortSpec s (d.sources socket.links)
      else Unlinked d.builder s
  extra : ∀ {n : Nat} {entry : NodeEntry}, d.builder.nodes[n]? = some entry → tree.nodes.size ≤ n →
    Extra tree.nodes.size d.builder entry
  nodes : d.builder.nodes.size ≤ tree.nodes.size + 2 * tree.sockets.size
  converted : ∀ {k : Nat} {link : Nat × Nat},
    (tree.conversions d.socket? tree.sockets.size)[k]? = some link → Converts d (tree.nodes.size + k) link
  constants : Appends (Supplies tree)
    (tree.nodes.size + (tree.conversions d.socket? tree.sockets.size).length)
    (tree.unsupplied d.socket? tree.sockets.size) d

/-- Why the links and nodes of a tree cannot be inserted. -/
inductive Refused (tree : Snapshot) (config : Config) : Prop
  | interface (h : ¬Single tree config)
  | node {node : SnapshotNode} (hn : node ∈ tree.nodes.toList) (h : ∀ f, ¬Inserts tree config node f)
  | link {d : Draft} {i : Nat} {socket : SnapshotSocket} {s : InputSocket}
      (hd : Placed tree config tree.nodes.size d) (hs : tree.sockets[i]? = some socket)
      (hi : d.socket? i = some (.input s)) (h : ¬Linkable d.builder s (origins d socket))

theorem Ends.insertTree (hc : tree.Copies nodes) (config : Config) :
    Ends (Refused tree config) (Lower.insertTree tree config (builtin config)) (Draft.start tree) fun _ d =>
      Completed tree config d := by
  refine (Ends.checkInterface Refused.interface).bind ?_
  rintro _ _ ⟨rfl, hsingle⟩
  refine (Ends.insertNodes hc fun node hn h => .node hn h).bind fun _ d hd => ?_
  have hstanding := hd.standing hc
  have hunlinked {i : Nat} {s : InputSocket} (hi : d.socket? i = some (.input s)) : Unlinked d.builder s := by
    cases hd.represented.place hc hd.size hi with
    | input _ he _ hk =>
        obtain ⟨origin, hat⟩ := hd.typed.input_at he hk
        exact ⟨_, hat, hd.unlinked hat⟩
  refine (Ends.linkInputs hstanding hd.typed hunlinked fun hs hi h => .link hd hs hi h).bind ?_
  rintro _ d₁ ⟨hs₁, hg₁, hconverts, hl₁⟩
  have howner {i : Nat} {socket : SnapshotSocket} (hs : tree.sockets[i]? = some socket) :
      ∃ owner, tree.nodes[socket.node]? = some owner := by
    obtain ⟨n, first, k, -, hnode, -⟩ := hc.place (Snapshot.getElem?_owners hs)
    exact ⟨_, hnode⟩
  have horigins (socket : SnapshotSocket) : origins d₁ socket = origins d socket := by
    rw [origins, origins, Draft.sources_eq hs₁]
  refine (Ends.insertConstants (hstanding.grows hs₁ hg₁) hg₁.typed howner fun hs hi =>
    horigins _ ▸ hl₁ hs ((Draft.socket?_eq hs₁ _).symm.trans hi)).mono ?_
  rintro _ d₂ ⟨hs₂, hg₂, hsupplies, hl₂⟩
  have hs := hs₂.trans hs₁
  have hg := hg₁.trans hg₂
  have hmapped : d₂.socket? = d.socket? := funext (Draft.socket?_eq hs)
  refine ⟨hsingle, hstanding.grows hs hg, hg.typed, hd.represented.grows hs hg, fun {i socket s} hsocket hi => ?_,
    fun hn hle => hg.extra hn (hd.nodes.symm ▸ hle), ?_, fun hlink => ?_, ?_⟩
  · have hsupplied := hl₂ hsocket ((Draft.socket?_eq hs₂ i).symm.trans hi)
    rw [origins, ← Draft.sources_eq hs₂] at hsupplied
    split
    · rename_i hin
      rwa [if_pos hin, if_pos hin] at hsupplied
    · rename_i hin
      rwa [if_neg hin, if_neg hin] at hsupplied
  · have := hg.nodes
    have := hd.nodes
    omega
  · rw [hmapped] at hlink
    have hconverted := hconverts.added hlink
    rw [hd.nodes] at hconverted
    exact hconverted.extends hs₂ hg₂.keeps
  · rwa [hconverts.size, hd.nodes, funext (Draft.socket?_eq hs₁), ← hmapped] at hsupplies

end Lower

namespace Snapshot

open Lower

variable {tree : Snapshot} {config : Config} {nodes : List Node}

/-- A finished draft and the data graph that has been made of it. -/
structure Lowers (tree : Snapshot) (config : Config) (d : Draft) (t : LoweredTree) : Prop where
  completed : Completed tree config d
  build : d.builder.build = .ok (.ok t.graph)
  sockets : t.sockets = d.sockets
  numbered : tree.NumbersNodes

/-- Lowering a tree gives its data graph, or it is refused for one of the known reasons. -/
theorem lower_cases (hc : tree.Copies nodes) (config : Config) :
    (∃ t d, tree.lower config (.builtin config) = .ok (.ok t) ∧ Lowers tree config d t) ∨
      ∃ e, tree.lower config (.builtin config) = .ok (.error e) ∧ (Refused tree config ∨
        ∃ d, Completed tree config d ∧ ((∃ s, Unlinked d.builder s) ∨ ¬∃ rank, Ranked d.builder rank)) := by
  rcases Ends.insertTree hc config with ⟨hrefused, e, he⟩ | ⟨⟨⟩, d, hd, hcompleted⟩
  · refine .inr ⟨e, ?_, .inl hrefused⟩
    rw [lower, he]
    rfl
  · rcases hcompleted.typed.build_cases with ⟨g, hg⟩ | ⟨e, he, hwhy⟩
    · refine .inl ⟨⟨g, d.sockets⟩, d, ?_, hcompleted, hg, rfl, hc.numbersNodes⟩
      rw [lower, hd]
      simp only [ok_bind, hg]
      rfl
    · refine .inr ⟨.dataGraph e, ?_, .inr ⟨d, hcompleted, hwhy⟩⟩
      rw [lower, hd]
      simp only [ok_bind, he]
      rfl

theorem exists_lowers (hc : tree.Copies nodes) {t : LoweredTree}
    (h : tree.lower config (.builtin config) = .ok (.ok t)) : ∃ d, Lowers tree config d t := by
  rcases lower_cases hc config with ⟨t', d, ht, hd⟩ | ⟨e, he, -⟩
  · rw [h] at ht
    cases ht
    exact ⟨d, hd⟩
  · rw [h] at he
    cases he

end Snapshot

end Nodeflow
