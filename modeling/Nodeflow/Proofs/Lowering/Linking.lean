import Nodeflow.Lowering.Link
import Nodeflow.Proofs.Lowering.Sequence

/-!
# Linking the inputs of a tree

The second phase of lowering links the data input of each input socket to the data output at the
other end of its link, and refuses a second one. It adds only conversions to the nodes that stand for
nodes of the tree.
-/

namespace Nodeflow

open DataGraphBuilder

/-- The data outputs at the other ends of links. -/
def Draft.sources (d : Draft) (links : List Nat) : List OutputSocket :=
  links.filterMap fun i => match d.socket? i with
    | some (.output o) => some o
    | _ => none

theorem Draft.socket?_eq {d d' : Draft} (h : d'.sockets = d.sockets) (i : Nat) : d'.socket? i = d.socket? i := by
  rw [Draft.socket?, h, Draft.socket?]

theorem Draft.sources_eq {d d' : Draft} (h : d'.sockets = d.sockets) (links : List Nat) :
    d'.sources links = d.sources links := by
  simp only [Draft.sources, Draft.socket?, h]

theorem Draft.sources_append (d : Draft) (links links' : List Nat) :
    d.sources (links ++ links') = d.sources links ++ d.sources links' :=
  List.filterMap_append

theorem Draft.forall₂_sources (d : Draft) (links : List Nat) :
    List.Forall₂ (fun a o => d.socket? a = some (.output o))
      (links.filter fun a => (d.socket? a).any DataSocket.isOutput) (d.sources links) := by
  induction links with
  | nil => exact .nil
  | cons a links ih =>
      rw [sources, List.filter_cons, List.filterMap_cons]
      cases ha : d.socket? a with
      | none => exact ih
      | some place =>
          cases place with
          | input s => exact ih
          | output o => exact .cons ha ih

theorem Draft.forall₂_mappedSources (d : Draft) {tree : Snapshot} {i : Nat} {socket : SnapshotSocket}
    (hs : tree.sockets[i]? = some socket) : List.Forall₂ (fun a o => d.socket? a = some (.output o))
      (tree.mappedSources d.socket? i) (d.sources socket.links) := by
  rw [Snapshot.mappedSources, hs]
  exact d.forall₂_sources socket.links

theorem Draft.exists_socket?_of_mem_sources {d : Draft} {o : OutputSocket} {links : List Nat} (h : o ∈ d.sources links) :
    ∃ a, d.socket? a = some (.output o) := by
  obtain ⟨k, hk⟩ := List.mem_iff_getElem?.mp h
  obtain ⟨a, -, ha⟩ := (forall₂_iff_getElem?.mp (d.forall₂_sources links).flip).2 hk
  exact ⟨a, ha⟩

theorem Draft.sources_singleton {d : Draft} {o : OutputSocket} {i : Nat} {os : List OutputSocket} (h : d.sources [i] = o :: os) :
    d.socket? i = some (.output o) ∧ os = [] := by
  cases hi : d.socket? i with
  | none => simp [Draft.sources, hi] at h
  | some place =>
      cases place with
      | input s => simp [Draft.sources, hi] at h
      | output o' =>
          simp [Draft.sources, hi] at h
          exact ⟨by rw [h.1], h.2⟩

namespace Lower

variable {R : Prop} {tree : Snapshot} {d d' : Draft} {o : OutputSocket} {s : InputSocket} {N : Nat}
  {source target : ValueType}

/-! ## One link -/

theorem Ends.link_record {type : ValueType} {Q : Except DataGraphError Unit → Draft → Prop}
    (hu : Unlinked d.builder s) (hs : d.builder.outputType o = .ok type)
    (ht : d.builder.inputType s = .ok type) (h : Q (.ok ()) { d with builder := d.builder.record o s }) :
    Ends R (Lower.link o s) d Q :=
  .link (link_eq_record hu hs ht) h

theorem Ends.link_refused {o' : OutputSocket} (ho : HasOrigin d.builder s o')
    (hs : d.builder.outputType o = .ok source) (ht : d.builder.inputType s = .ok target) :
    Ends R (Lower.link o s) d fun r _ => ∃ e, r = .error e := by
  obtain ⟨e, he, horigin⟩ := ho
  refine .link_error (e := .alreadyLinked s) ?_ ⟨_, rfl⟩
  rw [link_eq he hs ht, horigin]
  rfl

/-- A conversion is put in front of an input, and its own input is linked. -/
theorem Ends.convert (hs : d.builder.outputType o = .ok source) {f : Function}
    (hf : Builtin.conversion? source target = some f)
    {next : OutputSocket → Lower (Except DataGraphError Unit)} {Q : Except DataGraphError Unit → Draft → Prop}
    (hnext : Ends R (next ⟨d.builder.outputs.size⟩)
      { d with builder := (d.builder.insert f none).2.record o ⟨d.builder.inputs.size⟩ } Q) :
    Ends R (do
      let node ← Lower.insert tree f none
      let input ← Lower.look (Wiring.inputSocket · node 0)
      let output ← Lower.look (Wiring.outputSocket · node 0)
      match ← Lower.link o input with
      | .error e => return .error e
      | .ok () => next output) d Q := by
  obtain ⟨-, p, q, hin, hout, rfl, rfl⟩ := exists_of_conversion? hf
  let d₁ : Draft := { d with builder := (d.builder.insert f none).2 }
  refine .step (.insert ⟨rfl, rfl⟩) ?_
  have hinput : Wiring.inputSocket d₁.builder ⟨d.builder.nodes.size⟩ 0 = .ok ⟨d.builder.inputs.size⟩ :=
    Wiring.inputSocket_eq_ok_iff.mpr ⟨_, node_insert f none d.builder, by simp [NodeEntry.inputCount, hin], rfl⟩
  have houtput : Wiring.outputSocket d₁.builder ⟨d.builder.nodes.size⟩ 0 = .ok ⟨d.builder.outputs.size⟩ :=
    Wiring.outputSocket_eq_ok_iff.mpr ⟨_, node_insert f none d.builder, by simp [NodeEntry.outputCount, hout], rfl⟩
  refine .step (.look hinput ⟨rfl, rfl⟩) ?_
  refine .step (.look houtput ⟨rfl, rfl⟩) ?_
  refine .step (.link_record (unlinked_insert f none (k := 0) (by simp [hin]))
    ((extends_insert f none _).outputType hs) (inputType_insert f none (k := 0) (by simp [hin])) ⟨rfl, rfl⟩) ?_
  exact hnext

/-- What a link adds to a graph: itself, or a conversion with a link on either side. -/
inductive Joins (b : DataGraphBuilder) (o : OutputSocket) (s : InputSocket) : DataGraphBuilder → Prop
  | direct {type : ValueType} (hu : Unlinked b s) (hs : b.outputType o = .ok type) (ht : b.inputType s = .ok type) :
      Joins b o s (b.record o s)
  | converted {source target : ValueType} {f : Function} (hu : Unlinked b s) (hs : b.outputType o = .ok source)
      (ht : b.inputType s = .ok target) (hf : Builtin.conversion? source target = some f) :
      Joins b o s (((b.insert f none).2.record o ⟨b.inputs.size⟩).record ⟨b.outputs.size⟩ s)

theorem extends_record_of_unlinked {b : DataGraphBuilder} (hu : Unlinked b s) : Extends b (b.record o s) := by
  refine extends_record fun e he => ?_
  obtain ⟨e', he', hnone⟩ := hu
  obtain rfl := Option.some.inj (he.symm.trans he')
  exact hnone

theorem unlinked_insert_record {b : DataGraphBuilder} (hu : Unlinked b s) (f : Function) :
    Unlinked ((b.insert f none).2.record o ⟨b.inputs.size⟩) s :=
  hu.imp fun _ he => ⟨input_insert_record_of_eq_some none he.1, he.2⟩

theorem Joins.extends {b b' : DataGraphBuilder} (h : Joins b o s b') : Extends b b' := by
  cases h with
  | direct hu => exact extends_record_of_unlinked hu
  | @converted _ _ f hu _ _ hf =>
      obtain ⟨-, p, q, hin, -⟩ := exists_of_conversion? hf
      exact ((extends_insert f none b).trans (extends_insert_record none hin)).trans
        (extends_record_of_unlinked (unlinked_insert_record hu f))

theorem Joins.hasOrigin {b b' : DataGraphBuilder} (h : Joins b o s b') : ∃ o', HasOrigin b' s o' := by
  cases h with
  | direct hu => exact ⟨_, hasOrigin_record hu⟩
  | converted hu => exact ⟨_, hasOrigin_record (unlinked_insert_record hu _)⟩

/-- A link carries its value, and leaves the other inputs as they are. -/
theorem Joins.grows {b b' : DataGraphBuilder} (h : Joins b o s b') (hb : WellTyped b) {e : OutputEntry}
    (he : b.outputs[o.index]? = some e) (hN : e.node.index < N) :
    Grows N 1 b b' ∧ Spares b b' s ∧ Carries b' o s := by
  cases h with
  | direct hu hs ht =>
      exact ⟨(grows_record hb hu hs ht).mono (Nat.zero_le 1), spares_record, .direct (hasOrigin_record hu)⟩
  | @converted source target f hu hs ht hf =>
      obtain ⟨hop, p, q, hin, hout, rfl, rfl⟩ := exists_of_conversion? hf
      let b₁ := (b.insert f none).2.record o ⟨b.inputs.size⟩
      have hgrows : Grows N 1 b b₁ := grows_insert_record none hb hop hin hs he hN
      have hu₁ : Unlinked b₁ s := unlinked_insert_record hu f
      have hs₁ : b₁.outputType ⟨b.outputs.size⟩ = .ok q.type :=
        (extends_insert_record none hin).outputType (outputType_insert f none (k := 0) (by simp [hout]))
      have ht₁ := hgrows.keeps.inputType ht
      have hrecord := grows_record (N := N) hgrows.typed hu₁ hs₁ ht₁
      refine ⟨hgrows.trans hrecord, ⟨fun he hne => spares_record.others (input_insert_record_of_eq_some none he) hne⟩, ?_⟩
      refine .converted (hrecord.keeps.outputType (hgrows.keeps.outputType hs)) (hrecord.keeps.inputType ht₁) hf
        (node_insert f none b) rfl (hrecord.keeps.hasOrigin (hasOrigin_record ?_)) (hasOrigin_record hu₁)
      exact unlinked_insert f none (k := 0) (by simp [hin])

theorem Ends.linkConverted (hu : Unlinked d.builder s) (hs : d.builder.outputType o = .ok source)
    (ht : d.builder.inputType s = .ok target) (hconv : Convertible source target) :
    Ends R (Lower.linkConverted tree o s) d fun r d' => r = .ok () ∧ d'.sockets = d.sockets ∧
      Joins d.builder o s d'.builder := by
  refine .step (.look hs ⟨rfl, rfl⟩) ?_
  refine .step (.look ht ⟨rfl, rfl⟩) ?_
  split
  · rename_i heq
    subst heq
    exact .link_record hu hs ht ⟨rfl, rfl, .direct hu hs ht⟩
  · rename_i hne
    obtain ⟨f, hf⟩ := Option.isSome_iff_exists.mp (hconv.resolve_left hne)
    obtain ⟨-, p, q, hin, hout, rfl, rfl⟩ := exists_of_conversion? hf
    rw [hf]
    refine Ends.convert hs hf ?_
    have hext := (extends_insert f none d.builder).trans (extends_insert_record (o := o) none hin)
    have hs₁ : ((d.builder.insert f none).2.record o ⟨d.builder.inputs.size⟩).outputType
        ⟨d.builder.outputs.size⟩ = .ok q.type :=
      (extends_insert_record none hin).outputType (outputType_insert f none (k := 0) (by simp [hout]))
    exact .link_record (unlinked_insert_record hu f) hs₁ (hext.inputType ht) ⟨rfl, rfl, .converted hu hs ht hf⟩

/-- A second link to an input is refused, and so is one between types that do not convert. -/
theorem Ends.linkConverted_refused (hs : d.builder.outputType o = .ok source)
    (ht : d.builder.inputType s = .ok target)
    (h : (∃ o', HasOrigin d.builder s o') ∨ ¬Convertible source target) :
    Ends R (Lower.linkConverted tree o s) d fun r _ => ∃ e, r = .error e := by
  refine .step (.look hs ⟨rfl, rfl⟩) ?_
  refine .step (.look ht ⟨rfl, rfl⟩) ?_
  split
  · rename_i heq
    obtain ⟨o', ho'⟩ := h.resolve_right (not_not.mpr (.inl heq))
    exact .link_refused ho' hs ht
  · split
    · exact .pure ⟨_, rfl⟩
    · rename_i f hf
      obtain ⟨o', ho'⟩ := h.resolve_right (not_not.mpr (.inr (by rw [hf]; rfl)))
      obtain ⟨-, p, q, hin, hout, rfl, rfl⟩ := exists_of_conversion? hf
      have hext := (extends_insert f none d.builder).trans (extends_insert_record (o := o) none hin)
      have hs₁ : ((d.builder.insert f none).2.record o ⟨d.builder.inputs.size⟩).outputType
          ⟨d.builder.outputs.size⟩ = .ok q.type :=
        (extends_insert_record none hin).outputType (outputType_insert f none (k := 0) (by simp [hout]))
      exact Ends.convert hs hf (.link_refused (hext.hasOrigin ho') hs₁ (hext.inputType ht))

/-! ## The links of an input -/

/-- Sockets of the tree stand for different data sockets of the first `N` nodes, of the same types. -/
structure Standing (tree : Snapshot) (N : Nat) (d : Draft) : Prop where
  size : d.sockets.size = tree.sockets.size
  nodes : N ≤ d.builder.nodes.size
  injective : ∀ {i i' : Nat} {s : DataSocket}, d.socket? i = some s → d.socket? i' = some s → i = i'
  input : ∀ {i : Nat} {s : InputSocket}, d.socket? i = some (.input s) →
    ∃ type, d.builder.inputType s = .ok type ∧ tree.valueType? i = some type
  output : ∀ {i : Nat} {o : OutputSocket}, d.socket? i = some (.output o) →
    (∃ type, d.builder.outputType o = .ok type ∧ tree.valueType? i = some type) ∧
      ∃ e, d.builder.outputs[o.index]? = some e ∧ e.node.index < N

/-- An input may have one source, of a type that converts to its own. -/
def Linkable (b : DataGraphBuilder) (s : InputSocket) : List OutputSocket → Prop
  | [] => True
  | [o] => ∃ source target, b.outputType o = .ok source ∧ b.inputType s = .ok target ∧
      Convertible source target
  | _ => False

/-- An input has been linked to its source, if it has one. -/
def Linked (b : DataGraphBuilder) (s : InputSocket) : List OutputSocket → Prop
  | [] => b.Unlinked s
  | [o] => b.Carries o s
  | _ => False

theorem Standing.grows {m : Nat} (h : Standing tree N d) (hs : d'.sockets = d.sockets)
    (hg : Grows N m d.builder d'.builder) : Standing tree N d' := by
  refine ⟨hs ▸ h.size, Nat.le_trans h.nodes ?_, fun {i i' s} hi hi' => ?_, fun {i s} hi => ?_, fun {i o} hi => ?_⟩
  · by_contra hlt
    have hn := Array.getElem?_eq_getElem (Nat.lt_of_not_le hlt)
    exact absurd (Array.getElem?_eq_some_iff.mp (hg.keeps.nodes hn)).1 (Nat.lt_irrefl _)
  · rw [Draft.socket?_eq hs] at hi hi'
    exact h.injective hi hi'
  · rw [Draft.socket?_eq hs] at hi
    exact (h.input hi).imp fun _ ht => ⟨hg.keeps.inputType ht.1, ht.2⟩
  · rw [Draft.socket?_eq hs] at hi
    obtain ⟨⟨type, ht, hvalue⟩, e, he, hlt⟩ := h.output hi
    obtain ⟨targets, he'⟩ := hg.keeps.outputs he
    exact ⟨⟨type, hg.keeps.outputType ht, hvalue⟩, _, he', hlt⟩

theorem Standing.exists_socket (h : Standing tree N d) {i : Nat} {s : DataSocket} (hi : d.socket? i = some s) :
    ∃ socket, tree.sockets[i]? = some socket := by
  have hlt : i < tree.sockets.size := by
    rw [← h.size]
    by_contra hge
    rw [Draft.socket?, Array.getElem?_eq_none (Nat.le_of_not_lt hge)] at hi
    cases hi
  exact ⟨_, Array.getElem?_eq_getElem hlt⟩

theorem Linkable.extends {b b' : DataGraphBuilder} {os : List OutputSocket} (h : Linkable b s os)
    (hext : Extends b b') : Linkable b' s os :=
  match os, h with
  | [], h => h
  | [_], ⟨source, target, hs, ht, hconv⟩ =>
      ⟨source, target, hext.outputType hs, hext.inputType ht, hconv⟩

theorem not_linkable_append {b : DataGraphBuilder} {os os' os'' : List OutputSocket} (h : os ≠ []) (h' : os' ≠ []) :
    ¬Linkable b s (os ++ os' ++ os'') := by
  cases os with
  | nil => exact absurd rfl h
  | cons o os =>
      cases os' with
      | nil => exact absurd rfl h'
      | cons o' os' =>
          cases os <;> exact id

theorem not_linkable_cons {b : DataGraphBuilder} (hs : b.outputType o = .ok source) (ht : b.inputType s = .ok target)
    (hno : ¬Convertible source target) (os : List OutputSocket) : ¬Linkable b s (o :: os) := by
  cases os with
  | nil =>
      rintro ⟨source', target', hs', ht', hconv⟩
      obtain rfl := Except.ok.inj (hs.symm.trans hs')
      obtain rfl := Except.ok.inj (ht.symm.trans ht')
      exact hno hconv
  | cons => exact id

theorem Ends.linkOrigin_refused {socket : SnapshotSocket} {i : Nat} {Q : Unit → Draft → Prop}
    (hi : d.socket? i = some (.output o)) (hsocket : ∃ other, tree.sockets[i]? = some other)
    (hs : d.builder.outputType o = .ok source) (ht : d.builder.inputType s = .ok target)
    (h : (∃ o', HasOrigin d.builder s o') ∨ ¬Convertible source target) (hR : R) :
    Ends R (linkOrigin tree socket s i) d Q := by
  obtain ⟨other, hother⟩ := hsocket
  refine .step (.mapped? ⟨hi, rfl⟩) ?_
  refine (Ends.linkConverted_refused hs ht h).bind ?_
  rintro _ d₁ ⟨e, rfl⟩
  exact (Ends.socket hother (Q := fun _ _ => True) trivial).bind fun _ _ _ => .throw hR

theorem Ends.linkOrigin {socket : SnapshotSocket} {i : Nat} (hi : d.socket? i = some (.output o))
    (hu : Unlinked d.builder s) (hs : d.builder.outputType o = .ok source) (ht : d.builder.inputType s = .ok target)
    (hconv : Convertible source target) :
    Ends R (Lower.linkOrigin tree socket s i) d fun _ d' => d'.sockets = d.sockets ∧ Joins d.builder o s d'.builder := by
  refine .step (.mapped? ⟨hi, rfl⟩) ?_
  refine (Ends.linkConverted hu hs ht hconv).bind ?_
  rintro _ d₁ ⟨rfl, h⟩
  exact .pure h

theorem Ends.linkOrigin_nil {socket : SnapshotSocket} {i : Nat} {Q : Unit → Draft → Prop}
    (hi : d.sources [i] = []) (h : Q () d) : Ends R (Lower.linkOrigin tree socket s i) d Q := by
  refine Ends.bind (P := fun s? d' => d.socket? i = s? ∧ d = d') (.mapped? ⟨rfl, rfl⟩) ?_
  rintro s? _ ⟨hs?, rfl⟩
  cases s? with
  | none => exact .pure h
  | some place =>
      cases place with
      | input s' => exact .pure h
      | output o => simp [Draft.sources, hs?] at hi

/-- An input is linked to its source, if it has one. -/
inductive Attached (b : DataGraphBuilder) (s : InputSocket) : List OutputSocket → DataGraphBuilder → Prop
  | nothing : Attached b s [] b
  | link {o : OutputSocket} {b' : DataGraphBuilder} (h : Joins b o s b') : Attached b s [o] b'

theorem Ends.linkOrigins {socket : SnapshotSocket} (hd : Standing tree N d) (hu : Unlinked d.builder s)
    (ht : d.builder.inputType s = .ok target) (hR : ¬Linkable d.builder s (d.sources socket.links) → R) :
    Ends R (socket.links.forM (Lower.linkOrigin tree socket s)) d fun _ d' => d'.sockets = d.sockets ∧
      Attached d.builder s (d.sources socket.links) d'.builder := by
  refine Ends.forM (fun before d' => d'.sockets = d.sockets ∧ Attached d.builder s (d.sources before) d'.builder)
    ⟨rfl, .nothing⟩ ?_
  rintro before i after d₁ hsplit ⟨hs₁, hattached⟩
  have hsources : d.sources socket.links = d.sources before ++ d.sources [i] ++ d.sources after := by
    rw [hsplit, ← List.singleton_append, ← List.append_assoc, Draft.sources_append, Draft.sources_append]
  rw [Draft.sources_append]
  cases hi : d.sources [i] with
  | nil =>
      rw [List.append_nil]
      exact .linkOrigin_nil ((Draft.sources_eq hs₁ [i]).trans hi) ⟨hs₁, hattached⟩
  | cons o os =>
      obtain ⟨hi', rfl⟩ := Draft.sources_singleton hi
      obtain ⟨⟨source, hs, -⟩, -⟩ := hd.output hi'
      have hi₁ := (Draft.socket?_eq hs₁ i).trans hi'
      rw [hi] at hsources
      generalize hbefore : d.sources before = os at hattached hsources
      generalize hb₁ : d₁.builder = b₁ at hattached
      cases hattached with
      | link hjoins =>
          -- the input is taken
          have hext : Extends d.builder d₁.builder := hb₁ ▸ hjoins.extends
          refine .linkOrigin_refused hi₁ (hd.exists_socket hi') (hext.outputType hs)
            (hext.inputType ht) (.inl (hb₁ ▸ hjoins.hasOrigin)) (hR ?_)
          rw [hsources]
          exact not_linkable_append (by simp) (by simp)
      | nothing =>
          by_cases hconv : Convertible source target
          · refine (Ends.linkOrigin hi₁ (hb₁ ▸ hu) (hb₁ ▸ hs) (hb₁ ▸ ht) hconv).mono fun _ d₂ h => ?_
            exact ⟨h.1.trans hs₁, .link (hb₁ ▸ h.2)⟩
          · refine .linkOrigin_refused hi₁ (hd.exists_socket hi') (hb₁ ▸ hs) (hb₁ ▸ ht) (.inr hconv) (hR ?_)
            rw [hsources]
            exact not_linkable_cons hs ht hconv (d.sources after)

theorem Attached.grows {b b' : DataGraphBuilder} {os : List OutputSocket} (h : Attached b s os b') (hb : WellTyped b)
    (hu : Unlinked b s) (ho : ∀ o ∈ os, ∃ e, b.outputs[o.index]? = some e ∧ e.node.index < N) :
    Grows N 1 b b' ∧ Spares b b' s ∧ Linked b' s os := by
  cases h with
  | nothing => exact ⟨(Grows.refl hb).mono (Nat.zero_le 1), ⟨fun he _ => he⟩, hu⟩
  | link h =>
      obtain ⟨e, he, hlt⟩ := ho _ (List.mem_singleton.mpr rfl)
      exact h.grows hb he hlt

/-! ## All inputs -/

/-- The sources of a socket: an output of the tree has none. -/
def origins (d : Draft) (socket : SnapshotSocket) : List OutputSocket :=
  if socket.isInput then d.sources socket.links else []

/-- What is preserved by each visit holds after all inputs have been visited. -/
theorem Ends.forInputs {visit : SnapshotSocket → InputSocket → Lower Unit} (motive : Nat → Draft → Prop)
    (hstart : motive 0 d)
    (hskip : ∀ i socket d₁, tree.sockets[i]? = some socket → motive i d₁ →
      (∀ s, socket.isInput → d₁.socket? i ≠ some (.input s)) → motive (i + 1) d₁)
    (hvisit : ∀ i socket s d₁, tree.sockets[i]? = some socket → socket.isInput → motive i d₁ →
      d₁.socket? i = some (.input s) → Ends R (visit socket s) d₁ fun _ d₂ => motive (i + 1) d₂) :
    Ends R (Lower.forInputs tree visit) d fun _ d' => motive tree.sockets.size d' := by
  refine (Ends.forM (fun before d' => motive before.length d') hstart ?_).mono fun _ _ h => by simpa using h
  rintro before ⟨socket, i⟩ after d₁ hsplit h
  obtain ⟨hsocket, rfl⟩ : tree.sockets[i]? = some socket ∧ i = before.length := by
    have hat : tree.sockets.toList.zipIdx[before.length]? = some (socket, i) := by
      rw [hsplit]
      simp
    rw [List.getElem?_zipIdx, Option.map_eq_some_iff] at hat
    obtain ⟨socket', hs, he⟩ := hat
    simp only [Prod.mk.injEq] at he
    obtain ⟨rfl, hi⟩ := he
    obtain rfl : i = before.length := by omega
    exact ⟨by rwa [Array.getElem?_toList] at hs, rfl⟩
  rw [List.length_append, List.length_singleton]
  dsimp only
  split
  · rename_i hinput
    refine Ends.bind (P := fun s? d' => d₁.socket? before.length = s? ∧ d₁ = d') (.mapped? ⟨rfl, rfl⟩) ?_
    rintro s? _ ⟨hs?, rfl⟩
    split
    · rename_i s
      exact hvisit _ socket s _ hsocket hinput h hs?
    · rename_i hne
      exact .pure (hskip _ socket _ hsocket h fun s _ hs => hne s (hs?.symm.trans hs))
  · rename_i hinput
    exact .pure (hskip _ socket _ hsocket h fun s hin _ => hinput hin)

theorem Linked.grows {b b' : DataGraphBuilder} {s' : InputSocket} {os : List OutputSocket} (h : Linked b s' os)
    (hext : Extends b b') (hs : Spares b b' s) (hne : s' ≠ s) : Linked b' s' os :=
  match os, h with
  | [], h => hs.unlinked h hne
  | [_], h => hext.carries h

/-- What is known of the data inputs after those before a number have been visited. -/
structure Visited (tree : Snapshot) (N : Nat) (before after : SnapshotSocket → DataGraphBuilder → InputSocket → Prop)
    (d : Draft) (j : Nat) (d₁ : Draft) : Prop where
  sockets : d₁.sockets = d.sockets
  grows : Grows N j d.builder d₁.builder
  known : ∀ {i : Nat} {socket : SnapshotSocket} {s : InputSocket}, tree.sockets[i]? = some socket →
    d.socket? i = some (.input s) →
      if i < j ∧ socket.isInput then after socket d₁.builder s else before socket d₁.builder s

section Visited

variable {before after : SnapshotSocket → DataGraphBuilder → InputSocket → Prop} {j : Nat}
  {socket : SnapshotSocket} {d₁ d₂ : Draft}

theorem Visited.skip (h : Visited tree N before after d j d₁) (hsocket : tree.sockets[j]? = some socket)
    (hnot : ∀ s, socket.isInput → d.socket? j ≠ some (.input s)) : Visited tree N before after d (j + 1) d₁ := by
  refine ⟨h.sockets, h.grows.mono (Nat.le_succ j), fun {i socket' s} hsocket' hi => ?_⟩
  have hsame : i < j + 1 ∧ socket'.isInput ↔ i < j ∧ socket'.isInput := by
    refine ⟨fun ⟨hlt, hin⟩ => ⟨Nat.lt_of_le_of_ne (Nat.le_of_lt_succ hlt) fun hij => ?_, hin⟩,
      fun ⟨hlt, hin⟩ => ⟨Nat.lt_succ_of_lt hlt, hin⟩⟩
    subst hij
    rw [hsocket, Option.some.injEq] at hsocket'
    subst hsocket'
    exact hnot s hin hi
  rw [if_congr hsame rfl rfl]
  exact h.known hsocket' hi

/-- A visit brings what is known of its own input from `before` to `after`, and keeps what is known of the others. -/
theorem Visited.visit (h : Visited tree N before after d j d₁) (hd : Standing tree N d)
    (hsocket : tree.sockets[j]? = some socket) (hin : socket.isInput) (hj : d.socket? j = some (.input s))
    (hs : d₂.sockets = d₁.sockets) (hg : Grows N 1 d₁.builder d₂.builder) (hafter : after socket d₂.builder s)
    (hkeep : ∀ {socket : SnapshotSocket} {s' : InputSocket}, s' ≠ s →
      (before socket d₁.builder s' → before socket d₂.builder s') ∧ (after socket d₁.builder s' → after socket d₂.builder s')) :
    Visited tree N before after d (j + 1) d₂ := by
  refine ⟨hs.trans h.sockets, h.grows.trans hg, fun {i socket' s'} hsocket' hi => ?_⟩
  by_cases hij : i = j
  · subst hij
    rw [hsocket, Option.some.injEq] at hsocket'
    subst hsocket'
    rw [hj, Option.some.injEq, DataSocket.input.injEq] at hi
    subst hi
    rwa [if_pos ⟨Nat.lt_succ_self i, hin⟩]
  · have hne : s' ≠ s := fun he => hij (hd.injective hi (he ▸ hj))
    have hlt : i < j + 1 ↔ i < j := ⟨fun h => Nat.lt_of_le_of_ne (Nat.le_of_lt_succ h) hij, Nat.lt_succ_of_lt⟩
    rw [if_congr (and_congr_left' hlt) rfl rfl]
    have hold := h.known hsocket' hi
    split
    · rename_i hdone
      rw [if_pos hdone] at hold
      exact (hkeep hne).2 hold
    · rename_i hdone
      rw [if_neg hdone] at hold
      exact (hkeep hne).1 hold

theorem Visited.waiting (h : Visited tree N before after d j d₁) (hsocket : tree.sockets[j]? = some socket)
    (hj : d.socket? j = some (.input s)) : before socket d₁.builder s := by
  have hknown := h.known hsocket hj
  rwa [if_neg fun hlt => Nat.lt_irrefl j hlt.1] at hknown

theorem Visited.all (h : Visited tree N before after d tree.sockets.size d₁) {i : Nat}
    (hsocket : tree.sockets[i]? = some socket) (hi : d.socket? i = some (.input s)) :
    if socket.isInput then after socket d₁.builder s else before socket d₁.builder s := by
  have hknown := h.known hsocket hi
  rwa [if_congr (and_iff_right (Array.getElem?_eq_some_iff.mp hsocket).1) rfl rfl] at hknown

/-- What is known of all inputs after each one has been visited; the invariant is about the graph as a whole. -/
theorem Ends.visitInputs {visit : SnapshotSocket → InputSocket → Lower Unit} (invariant : Nat → Draft → Prop)
    (before after : SnapshotSocket → DataGraphBuilder → InputSocket → Prop) (hd : Standing tree N d)
    (hb : WellTyped d.builder)
    (hstart : ∀ {i : Nat} {socket : SnapshotSocket} {s : InputSocket}, tree.sockets[i]? = some socket →
      d.socket? i = some (.input s) → before socket d.builder s) (hinvariant : invariant 0 d)
    (hskip : ∀ {i : Nat} {socket : SnapshotSocket} {d₁ : Draft}, tree.sockets[i]? = some socket →
      (∀ s, socket.isInput → d.socket? i ≠ some (.input s)) → invariant i d₁ → invariant (i + 1) d₁)
    (hbefore : ∀ {socket : SnapshotSocket} {b b' : DataGraphBuilder} {s s' : InputSocket}, Extends b b' →
      Spares b b' s → s' ≠ s → before socket b s' → before socket b' s')
    (hafter : ∀ {socket : SnapshotSocket} {b b' : DataGraphBuilder} {s s' : InputSocket}, Extends b b' →
      Spares b b' s → s' ≠ s → after socket b s' → after socket b' s')
    (hvisit : ∀ {i : Nat} {socket : SnapshotSocket} {s : InputSocket} {d₁ : Draft}, tree.sockets[i]? = some socket →
      socket.isInput → d.socket? i = some (.input s) → d₁.sockets = d.sockets → Grows N i d.builder d₁.builder →
        before socket d₁.builder s → invariant i d₁ → Ends R (visit socket s) d₁ fun _ d₂ => d₂.sockets = d₁.sockets ∧
          Grows N 1 d₁.builder d₂.builder ∧ Spares d₁.builder d₂.builder s ∧ after socket d₂.builder s ∧
            invariant (i + 1) d₂) :
    Ends R (Lower.forInputs tree visit) d fun _ d' => d'.sockets = d.sockets ∧
      Grows N tree.sockets.size d.builder d'.builder ∧ invariant tree.sockets.size d' ∧
        ∀ {i : Nat} {socket : SnapshotSocket} {s : InputSocket}, tree.sockets[i]? = some socket →
          d.socket? i = some (.input s) →
            if socket.isInput then after socket d'.builder s else before socket d'.builder s := by
  refine (Ends.forInputs (fun j d₁ => Visited tree N before after d j d₁ ∧ invariant j d₁)
    ⟨⟨rfl, .refl hb, fun hsocket hi => hstart hsocket hi⟩, hinvariant⟩ ?_ ?_).mono ?_
  · rintro j socket d₁ hsocket ⟨h, hinv⟩ hnot
    have hnot' (s : InputSocket) (hin : socket.isInput) : d.socket? j ≠ some (.input s) :=
      Draft.socket?_eq h.sockets j ▸ hnot s hin
    exact ⟨h.skip hsocket hnot', hskip hsocket hnot' hinv⟩
  · rintro j socket s d₁ hsocket hin ⟨h, hinv⟩ hj
    have hj' := (Draft.socket?_eq h.sockets j).symm.trans hj
    refine (hvisit hsocket hin hj' h.sockets h.grows (h.waiting hsocket hj') hinv).mono fun _ d₂ hvisited => ?_
    obtain ⟨hs, hg, hspares, hdone, hinv'⟩ := hvisited
    exact ⟨h.visit hd hsocket hin hj' hs hg hdone fun hne =>
      ⟨hbefore hg.keeps hspares hne, hafter hg.keeps hspares hne⟩, hinv'⟩
  · rintro _ d' ⟨h, hinv⟩
    exact ⟨h.sockets, h.grows, hinv, fun hsocket hi => h.all hsocket hi⟩

end Visited

theorem Converts.of_insert {f : Function} {d₁ d₂ : Draft} {a i : Nat}
    (hb : d₂.builder = ((d₁.builder.insert f none).2.record o ⟨d₁.builder.inputs.size⟩).record ⟨d₁.builder.outputs.size⟩ s)
    (hu : Unlinked d₁.builder s) (hs : d₁.builder.outputType o = .ok source) (ht : d₁.builder.inputType s = .ok target)
    (hf : Builtin.conversion? source target = some f) (ha : d₂.socket? a = some (.output o))
    (hi : d₂.socket? i = some (.input s)) : Converts d₂ d₁.builder.nodes.size (a, i) := by
  obtain ⟨-, p, q, hin, -⟩ := exists_of_conversion? hf
  have hext : Extends d₁.builder d₂.builder := hb ▸ (Joins.converted hu hs ht hf).extends
  have hnew := unlinked_insert f none (b := d₁.builder) (k := 0) (by simp [hin])
  have hlast := unlinked_insert_record (o := o) hu f
  have hn : d₂.builder.nodes[d₁.builder.nodes.size]? =
      some ⟨f, none, d₁.builder.inputs.size, d₁.builder.outputs.size⟩ := by
    rw [hb]
    exact node_insert f none d₁.builder
  refine .node ha hi hn rfl (hext.outputType hs) (hext.inputType ht) hf ?_ ?_
  · rw [hb]
    exact (extends_record_of_unlinked hlast).hasOrigin (hasOrigin_record hnew)
  · rw [hb]
    exact hasOrigin_record hlast

theorem Attached.appends {socket : SnapshotSocket} {d₁ d₂ : Draft} {i first : Nat}
    (h : Attached d₁.builder s (d.sources socket.links) d₂.builder) (hd : Standing tree N d₁)
    (hs₁ : d₁.sockets = d.sockets) (hs₂ : d₂.sockets = d.sockets) (hsocket : tree.sockets[i]? = some socket)
    (hin : socket.isInput) (hi : d.socket? i = some (.input s))
    (happ : Appends Converts first (tree.conversions d.socket? i) d₁) :
    Appends Converts first (tree.conversions d.socket? (i + 1)) d₂ := by
  have hsources := d.forall₂_mappedSources hsocket
  rw [Snapshot.conversions_succ (by simp [hsocket, hin, hi, DataSocket.isInput])]
  generalize hb : d₂.builder = b at h
  generalize d.sources socket.links = os at h hsources
  have hkeep (hext : Extends d₁.builder d₂.builder) (n : Nat) (link : Nat × Nat) (hlink : Converts d₁ n link) :
      Converts d₂ n link := hlink.extends (hs₂.trans hs₁.symm) hext
  cases h with
  | nothing =>
      rw [List.forall₂_nil_right_iff.mp hsources, List.filter_nil, List.map_nil, List.append_nil]
      exact happ.mono (congrArg _ (congrArg _ hb)) (hkeep (hb ▸ .refl _))
  | @link o _ hjoins =>
      obtain ⟨a, _, ha, hnil, hlist⟩ := List.forall₂_cons_right_iff.mp hsources
      obtain rfl := List.forall₂_nil_right_iff.mp hnil
      obtain ⟨⟨source, hout, hsource⟩, -⟩ := hd.output ((Draft.socket?_eq hs₁ a).trans ha)
      obtain ⟨target, hinput, htarget⟩ := hd.input ((Draft.socket?_eq hs₁ i).trans hi)
      have hext : Extends d₁.builder d₂.builder := hb ▸ hjoins.extends
      rw [hlist, List.filter_singleton, Snapshot.crosses_eq hsource htarget]
      cases hjoins with
      | @direct type hu hs ht =>
          obtain rfl := Except.ok.inj (hs.symm.trans hout)
          obtain rfl := Except.ok.inj (ht.symm.trans hinput)
          have hnone : (Builtin.conversion? type type).isSome = false := by cases type <;> rfl
          rw [hnone, cond_false, List.map_nil, List.append_nil]
          exact happ.mono (by rw [hb]; rfl) (hkeep hext)
      | converted hu hs ht hf =>
          obtain rfl := Except.ok.inj (hs.symm.trans hout)
          obtain rfl := Except.ok.inj (ht.symm.trans hinput)
          rw [hf, Option.isSome_some, cond_true, List.map_singleton]
          refine happ.concat ?_ (hkeep hext) (.of_insert hb hu hs ht hf ((Draft.socket?_eq hs₂ a).trans ha)
            ((Draft.socket?_eq hs₂ i).trans hi))
          rw [hb]
          simp [DataGraphBuilder.insert, record]

theorem Ends.linkInputs (hd : Standing tree N d) (hb : WellTyped d.builder)
    (hu : ∀ {i : Nat} {s : InputSocket}, d.socket? i = some (.input s) → Unlinked d.builder s)
    (hR : ∀ {i : Nat} {socket : SnapshotSocket} {s : InputSocket}, tree.sockets[i]? = some socket →
      d.socket? i = some (.input s) → ¬Linkable d.builder s (origins d socket) → R) :
    Ends R (Lower.linkInputs tree) d fun _ d' => d'.sockets = d.sockets ∧
      Grows N tree.sockets.size d.builder d'.builder ∧
      Appends Converts d.builder.nodes.size (tree.conversions d.socket? tree.sockets.size) d' ∧
        ∀ {i : Nat} {socket : SnapshotSocket} {s : InputSocket}, tree.sockets[i]? = some socket →
          d.socket? i = some (.input s) → Linked d'.builder s (origins d socket) := by
  refine (Ends.visitInputs (fun j d' => Appends Converts d.builder.nodes.size (tree.conversions d.socket? j) d')
    (fun _ b s => Unlinked b s) (fun socket b s => Linked b s (d.sources socket.links)) hd hb
    (fun _ hi => hu hi) ⟨rfl, fun h => by cases h⟩ ?_ (fun _ hsp hne h => hsp.unlinked h hne)
    (fun hext hsp hne h => h.grows hext hsp hne) ?_).mono ?_
  · intro i socket d₁ hsocket hnot happ
    rwa [Snapshot.conversions, Snapshot.mappedInputs_succ_skip hsocket hnot]
  · intro i socket s d₁ hsocket hinput hi hs₁ hg₁ hu₁ happ
    have horigins : origins d socket = d₁.sources socket.links := by
      rw [origins, if_pos hinput, Draft.sources_eq hs₁]
    have hd₁ := hd.grows hs₁ hg₁
    obtain ⟨type, htype, -⟩ := hd.input hi
    refine (Ends.linkOrigins hd₁ hu₁ (hg₁.keeps.inputType htype) fun hno =>
      hR hsocket hi fun hlinkable => hno ?_).mono fun _ d₂ h₂ => ?_
    · rw [← horigins]
      exact hlinkable.extends hg₁.keeps
    · obtain ⟨hs₂, hattached⟩ := h₂
      rw [Draft.sources_eq hs₁] at hattached
      have hplaced : ∀ o ∈ d.sources socket.links, ∃ e, d₁.builder.outputs[o.index]? = some e ∧ e.node.index < N := by
        intro o ho
        obtain ⟨a, ha⟩ := Draft.exists_socket?_of_mem_sources ho
        exact (hd₁.output ((Draft.socket?_eq hs₁ a).trans ha)).2
      obtain ⟨hg₂, hsp₂, hl₂⟩ := hattached.grows hg₁.typed hu₁ hplaced
      exact ⟨hs₂, hg₂, hsp₂, hl₂, hattached.appends hd₁ hs₁ (hs₂.trans hs₁) hsocket hinput hi happ⟩
  · rintro _ d' ⟨hs, hg, happ, hl⟩
    refine ⟨hs, hg, happ, fun {i socket s} hsocket hi => ?_⟩
    have hlast := hl hsocket hi
    by_cases hin : socket.isInput
    · rw [if_pos hin] at hlast
      rwa [origins, if_pos hin]
    · rw [if_neg hin] at hlast
      rwa [origins, if_neg hin]

end Lower

end Nodeflow
