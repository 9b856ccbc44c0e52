import Nodeflow.Proofs.Lowering.Linking

/-!
# Constants for inputs

The third phase of lowering gives the data inputs that are left without an origin a constant, which
is the value of their port. Every input that stands for an input of the tree then has a value.
-/

namespace Nodeflow

open DataGraphBuilder

namespace Lower

variable {R : Prop} {tree : Snapshot} {d : Draft} {s : InputSocket} {N : Nat} {target : ValueType}

/-- An input takes its value from its source, or it takes the value of its port. -/
def Supplied (b : DataGraphBuilder) (port : PortSpec) (s : InputSocket) : List OutputSocket → Prop
  | [] => ∃ type, b.inputType s = .ok type ∧ b.TakesConstant s (portValue port type)
  | [o] => b.Carries o s
  | _ => False

@[simp] theorem type_portValue (port : PortSpec) (type : ValueType) : (portValue port type).type = type := by
  unfold portValue
  split
  · split
    · assumption
    · exact ValueType.type_default type
  · exact ValueType.type_default type

theorem Supplied.extends {b b' : DataGraphBuilder} {port : PortSpec} {os : List OutputSocket}
    (h : Supplied b port s os) (hext : Extends b b') : Supplied b' port s os :=
  match os, h with
  | [], ⟨type, ht, hc⟩ => ⟨type, hext.inputType ht, hext.takesConstant hc⟩
  | [_], h => hext.carries h

/-- The step of the third phase. -/
def insertConstant (tree : Snapshot) (socket : SnapshotSocket) (input : InputSocket) : Lower Unit := do
  if ← look (DataGraphBuilder.isLinked · input) then return
  let value := portValue socket.port.toPortSpec (← look (Wiring.inputType · input))
  let owner ← lift (elementAt tree.nodes socket.node)
  let node ← insert tree (Builtin.constant value) (some owner)
  let output ← look (Wiring.outputSocket · node 0)
  match ← link output input with
  | .ok () => return
  | .error e => throw (.dataGraph e)

theorem insertConstants_eq (tree : Snapshot) : insertConstants tree = forInputs tree (insertConstant tree) := rfl

/-- An input without a source is given a constant. -/
inductive Given (b : DataGraphBuilder) (s : InputSocket) (v : Value) (source : Option SourceInfo) :
    List OutputSocket → DataGraphBuilder → Prop
  | constant (hu : Unlinked b s) (ht : b.inputType s = .ok v.type) :
      Given b s v source [] ((b.insert (Builtin.constant v) source).2.record ⟨b.outputs.size⟩ s)
  | kept {o : OutputSocket} (h : Carries b o s) : Given b s v source [o] b

theorem outputType_constant (b : DataGraphBuilder) (v : Value) (source : Option SourceInfo) :
    (b.insert (Builtin.constant v) source).2.outputType ⟨b.outputs.size⟩ = .ok v.type :=
  outputType_insert (Builtin.constant v) source (k := 0) rfl

theorem unlinked_insert_constant {b : DataGraphBuilder} (hu : Unlinked b s) (v : Value) (source : Option SourceInfo) :
    Unlinked (b.insert (Builtin.constant v) source).2 s :=
  hu.imp fun _ he => ⟨input_insert_of_eq_some _ source he.1, he.2⟩

theorem isLinked_eq {b : DataGraphBuilder} {e : InputEntry (Option OutputSocket)}
    (he : b.inputs[s.index]? = some e) : b.isLinked s = .ok e.origin.isSome := by
  rw [isLinked, Wiring.input_eq_ok_iff.mpr he]
  rfl

theorem Ends.insertConstant_unlinked {socket : SnapshotSocket} {owner : SnapshotNode}
    (howner : tree.nodes[socket.node]? = some owner) (ht : d.builder.inputType s = .ok target)
    (hu : Unlinked d.builder s) :
    Ends R (Lower.insertConstant tree socket s) d fun _ d' => d'.sockets = d.sockets ∧
      Given d.builder s (portValue socket.port.toPortSpec target) (some ⟨tree.name, owner.name⟩) [] d'.builder := by
  let v := portValue socket.port.toPortSpec target
  let source : Option SourceInfo := some ⟨tree.name, owner.name⟩
  let b₁ := (d.builder.insert (Builtin.constant v) source).2
  have hlinked : d.builder.isLinked s = .ok false := by
    obtain ⟨e, he, ho⟩ := hu
    rw [isLinked_eq he, ho]
    rfl
  have houtput : Wiring.outputSocket b₁ ⟨d.builder.nodes.size⟩ 0 = .ok ⟨d.builder.outputs.size⟩ :=
    Wiring.outputSocket_eq_ok_iff.mpr
      ⟨_, node_insert _ source d.builder, by simp [NodeEntry.outputCount, Builtin.constant], rfl⟩
  have htype : v.type = target := type_portValue socket.port.toPortSpec target
  have hs₁ := outputType_constant d.builder v source
  have ht₁ : b₁.inputType s = .ok v.type := htype ▸ (extends_insert _ source d.builder).inputType ht
  refine .step (.look hlinked ⟨rfl, rfl⟩) ?_
  refine .step (.look ht ⟨rfl, rfl⟩) ?_
  refine .step (.lift (elementAt_eq_ok_iff.mpr howner) ⟨rfl, rfl⟩) ?_
  refine .step (.insert ⟨rfl, rfl⟩) ?_
  refine .step (.look houtput ⟨rfl, rfl⟩) ?_
  refine .step (.link_record (unlinked_insert_constant hu v source) hs₁ ht₁ ⟨rfl, rfl⟩) ?_
  exact .pure ⟨rfl, .constant hu (htype.symm ▸ ht)⟩

theorem Ends.insertConstant {socket : SnapshotSocket} {owner : SnapshotNode} {os : List OutputSocket}
    (howner : tree.nodes[socket.node]? = some owner) (ht : d.builder.inputType s = .ok target)
    (hl : Linked d.builder s os) :
    Ends R (Lower.insertConstant tree socket s) d fun _ d' => d'.sockets = d.sockets ∧
      Given d.builder s (portValue socket.port.toPortSpec target) (some ⟨tree.name, owner.name⟩) os d'.builder := by
  cases os with
  | nil => exact .insertConstant_unlinked howner ht hl
  | cons o rest =>
      cases rest with
      | cons => exact hl.elim
      | nil =>
          have hc : Carries d.builder o s := hl
          obtain ⟨o', e, he, ho⟩ := hc.hasOrigin
          have hlinked : d.builder.isLinked s = .ok true := by
            rw [isLinked_eq he, ho]
            rfl
          refine .step (.look hlinked ⟨rfl, rfl⟩) ?_
          exact .pure ⟨rfl, .kept hc⟩

section Given

variable {b b' : DataGraphBuilder} {port : PortSpec} {source : Option SourceInfo} {os : List OutputSocket}

theorem Given.extends {v : Value} (h : Given b s v source os b') : Extends b b' := by
  cases h with
  | constant hu => exact (extends_insert _ source b).trans (extends_record_of_unlinked (unlinked_insert_constant hu v source))
  | kept => exact .refl b

theorem Given.grows (h : Given b s (portValue port target) source os b') (hb : WellTyped b) :
    Grows N 1 b b' ∧ Spares b b' s ∧ Supplied b' port s os := by
  generalize hv : portValue port target = v at h
  cases h with
  | constant hu ht =>
      obtain rfl : v.type = target := hv ▸ type_portValue port target
      have hgrows : Grows N 1 b (b.insert (Builtin.constant v) source).2 := grows_insert source hb ⟨.constant v, rfl⟩ rfl
      have hu₁ := unlinked_insert_constant hu v source
      have ht₁ := hgrows.keeps.inputType ht
      have hrecord := grows_record (N := N) hgrows.typed hu₁ (outputType_constant b v source) ht₁
      refine ⟨hgrows.trans hrecord, ⟨fun he hne => spares_record.others (input_insert_of_eq_some _ source he) hne⟩,
        v.type, hrecord.keeps.inputType ht₁, ?_⟩
      rw [hv]
      exact ⟨_, _, node_insert _ source b, rfl, hasOrigin_record hu₁⟩
  | kept hc => exact ⟨(Grows.refl hb).mono (Nat.zero_le 1), ⟨fun he _ => he⟩, hc⟩

/-- The constant of an input is the node that comes next. -/
theorem Supplies.of_insert {socket : SnapshotSocket} {owner : SnapshotNode} {d₁ d₂ : Draft} {v : Value} {i : Nat}
    (hb : d₂.builder = (d₁.builder.insert (Builtin.constant v) (some ⟨tree.name, owner.name⟩)).2.record
      ⟨d₁.builder.outputs.size⟩ s)
    (hu : Unlinked d₁.builder s) (ht : d₁.builder.inputType s = .ok v.type) (hi : d₂.socket? i = some (.input s))
    (hsocket : tree.sockets[i]? = some socket) (howner : tree.nodes[socket.node]? = some owner)
    (hv : portValue socket.port.toPortSpec v.type = v) : Supplies tree d₂ d₁.builder.nodes.size i := by
  have hu₁ := unlinked_insert_constant hu v (some ⟨tree.name, owner.name⟩)
  have hext := (extends_insert (Builtin.constant v) (some ⟨tree.name, owner.name⟩) d₁.builder).trans
    (extends_record_of_unlinked (o := ⟨d₁.builder.outputs.size⟩) hu₁)
  have hn : d₂.builder.nodes[d₁.builder.nodes.size]? = some ⟨Builtin.constant v, some ⟨tree.name, owner.name⟩,
      d₁.builder.inputs.size, d₁.builder.outputs.size⟩ := by
    rw [hb]
    exact node_insert _ _ d₁.builder
  refine .node hi hsocket howner hn rfl ?_ (congrArg Builtin.constant hv.symm) ?_
  · rw [hb]
    exact hext.inputType ht
  · rw [hb]
    exact hasOrigin_record hu₁

theorem Given.appends {socket : SnapshotSocket} {owner : SnapshotNode} {d₁ d₂ : Draft} {i first : Nat}
    (h : Given d₁.builder s (portValue socket.port.toPortSpec target) (some ⟨tree.name, owner.name⟩)
      (d.sources socket.links) d₂.builder)
    (hs₁ : d₁.sockets = d.sockets) (hs₂ : d₂.sockets = d.sockets) (hsocket : tree.sockets[i]? = some socket)
    (howner : tree.nodes[socket.node]? = some owner) (hin : socket.isInput) (hi : d.socket? i = some (.input s))
    (happ : Appends (Supplies tree) first (tree.unsupplied d.socket? i) d₁) :
    Appends (Supplies tree) first (tree.unsupplied d.socket? (i + 1)) d₂ := by
  have hsources := d.forall₂_mappedSources hsocket
  rw [Snapshot.unsupplied_succ (by simp [hsocket, hin, hi, DataSocket.isInput])]
  have hkeep (n : Nat) (j : Nat) (hj : Supplies tree d₁ n j) : Supplies tree d₂ n j :=
    hj.extends (hs₂.trans hs₁.symm) h.extends
  generalize hb : d₂.builder = b at h
  generalize d.sources socket.links = os at h hsources
  generalize hv : portValue socket.port.toPortSpec target = v at h
  cases h with
  | kept =>
      obtain ⟨a, _, -, -, hlist⟩ := List.forall₂_cons_right_iff.mp hsources
      rw [hlist, List.isEmpty_cons, if_neg (by simp), List.append_nil]
      exact happ.mono (by rw [hb]) hkeep
  | constant hu ht =>
      rw [List.forall₂_nil_right_iff.mp hsources, List.isEmpty_nil, if_pos rfl]
      obtain rfl : v.type = target := hv ▸ type_portValue socket.port.toPortSpec target
      refine happ.concat ?_ hkeep (.of_insert hb hu ht ((Draft.socket?_eq hs₂ i).trans hi) hsocket howner hv)
      rw [hb]
      simp [DataGraphBuilder.insert, record]

end Given

theorem Ends.insertConstants (hd : Standing tree N d) (hb : WellTyped d.builder)
    (howner : ∀ {i : Nat} {socket : SnapshotSocket}, tree.sockets[i]? = some socket →
      ∃ owner, tree.nodes[socket.node]? = some owner)
    (hl : ∀ {i : Nat} {socket : SnapshotSocket} {s : InputSocket}, tree.sockets[i]? = some socket →
      d.socket? i = some (.input s) → Linked d.builder s (origins d socket)) :
    Ends R (Lower.insertConstants tree) d fun _ d' => d'.sockets = d.sockets ∧
      Grows N tree.sockets.size d.builder d'.builder ∧
      Appends (Supplies tree) d.builder.nodes.size (tree.unsupplied d.socket? tree.sockets.size) d' ∧
        ∀ {i : Nat} {socket : SnapshotSocket} {s : InputSocket}, tree.sockets[i]? = some socket →
          d.socket? i = some (.input s) →
            if socket.isInput then Supplied d'.builder socket.port.toPortSpec s (origins d socket)
            else Linked d'.builder s (origins d socket) := by
  rw [insertConstants_eq]
  refine Ends.visitInputs
    (fun j d' => Appends (Supplies tree) d.builder.nodes.size (tree.unsupplied d.socket? j) d')
    (fun socket b s => Linked b s (origins d socket))
    (fun socket b s => Supplied b socket.port.toPortSpec s (origins d socket)) hd hb (fun hsocket hi => hl hsocket hi)
    ⟨rfl, fun h => by cases h⟩ ?_ (fun hext hsp hne h => h.grows hext hsp hne) (fun hext _ _ h => h.extends hext) ?_
  · intro i socket d₁ hsocket hnot happ
    rwa [Snapshot.unsupplied, Snapshot.mappedInputs_succ_skip hsocket hnot]
  · intro i socket s d₁ hsocket hin hi hs₁ hg₁ hl₁ happ
    obtain ⟨type, htype, -⟩ := hd.input hi
    obtain ⟨owner, howner⟩ := howner hsocket
    refine (Ends.insertConstant howner (hg₁.keeps.inputType htype) hl₁).mono fun _ d₂ h₂ => ?_
    obtain ⟨hs₂, hgiven⟩ := h₂
    obtain ⟨hg₂, hsp₂, hsupplied⟩ := hgiven.grows (N := N) hg₁.typed
    rw [origins, if_pos hin] at hgiven
    exact ⟨hs₂, hg₂, hsp₂, hsupplied, hgiven.appends hs₁ (hs₂.trans hs₁) hsocket howner hin hi happ⟩

end Lower

end Nodeflow
