import Nodeflow.DataGraph.Builder
import Nodeflow.Proofs.Fault
import Mathlib.Data.List.Basic

/-!
# The numbering of sockets

The sockets of a node are the numbers from its first one on, and each socket knows its node and its
position there. Inserting nodes and recording links keep this, and linked sockets have one type.
-/

namespace Nodeflow

namespace Wiring

variable {ω : Type} {g : Wiring ω}

/-- Nodes and sockets name each other. -/
structure Numbered (g : Wiring ω) : Prop where
  input_at : ∀ {n : Nat} {entry : NodeEntry} {k : Nat}, g.nodes[n]? = some entry →
    k < entry.inputCount → ∃ origin, g.inputs[entry.firstInput + k]? = some ⟨⟨n⟩, k, origin⟩
  output_at : ∀ {n : Nat} {entry : NodeEntry} {k : Nat}, g.nodes[n]? = some entry →
    k < entry.outputCount → ∃ targets, g.outputs[entry.firstOutput + k]? = some ⟨⟨n⟩, k, targets⟩
  input_place : ∀ {s : Nat} {e : InputEntry ω}, g.inputs[s]? = some e →
    ∃ entry, g.nodes[e.node.index]? = some entry ∧ e.position < entry.inputCount ∧
      s = entry.firstInput + e.position
  output_place : ∀ {s : Nat} {e : OutputEntry}, g.outputs[s]? = some e →
    ∃ entry, g.nodes[e.node.index]? = some entry ∧ e.position < entry.outputCount ∧
      s = entry.firstOutput + e.position

theorem Numbered.exists_output (hg : Numbered g) {n : DataNode} {entry : NodeEntry}
    (hn : g.nodes[n.index]? = some entry) {j : Nat}
    (hj : entry.firstOutput ≤ j ∧ j < entry.firstOutput + entry.outputCount) :
    ∃ e, g.outputs[j]? = some e ∧ e.node = n ∧ entry.firstOutput + e.position = j := by
  obtain ⟨targets, ho⟩ := hg.output_at hn (k := j - entry.firstOutput) (by omega)
  rw [Nat.add_sub_cancel' hj.1] at ho
  exact ⟨_, ho, rfl, Nat.add_sub_cancel' hj.1⟩

theorem Numbered.output_iff (hg : Numbered g) {n : DataNode} {entry : NodeEntry}
    (hn : g.nodes[n.index]? = some entry) {j : Nat} {e : OutputEntry} (he : g.outputs[j]? = some e) :
    entry.firstOutput ≤ j ∧ j < entry.firstOutput + entry.outputCount ↔ e.node = n := by
  constructor
  · intro hj
    obtain ⟨e', he', hnode, -⟩ := hg.exists_output hn hj
    rw [he] at he'
    cases he'
    exact hnode
  · rintro rfl
    obtain ⟨entry', hn', hlt, rfl⟩ := hg.output_place he
    rw [hn] at hn'
    cases hn'
    omega

theorem Numbered.output_index (hg : Numbered g) {entry : NodeEntry} {j : Nat} {e : OutputEntry}
    (he : g.outputs[j]? = some e) (hn : g.nodes[e.node.index]? = some entry) :
    j = entry.firstOutput + e.position := by
  obtain ⟨entry', hn', -, hj⟩ := hg.output_place he
  rw [hn] at hn'
  cases hn'
  exact hj

theorem node_eq_ok_iff {n : DataNode} {entry : NodeEntry} :
    g.node n = .ok entry ↔ g.nodes[n.index]? = some entry := elementAt_eq_ok_iff

theorem input_eq_ok_iff {s : InputSocket} {e : InputEntry ω} :
    g.input s = .ok e ↔ g.inputs[s.index]? = some e := elementAt_eq_ok_iff

theorem output_eq_ok_iff {s : OutputSocket} {e : OutputEntry} :
    g.output s = .ok e ↔ g.outputs[s.index]? = some e := elementAt_eq_ok_iff

theorem place_input_eq_ok_iff {n : DataNode} {k : Nat} {s : InputSocket} :
    g.place (.input s) = .ok (n, k) ↔ ∃ origin, g.inputs[s.index]? = some ⟨n, k, origin⟩ := by
  simp only [place, map_eq_ok_iff, input_eq_ok_iff, Prod.mk.injEq]
  constructor
  · rintro ⟨e, he, rfl, rfl⟩
    exact ⟨e.origin, he⟩
  · rintro ⟨origin, he⟩
    exact ⟨_, he, rfl, rfl⟩

theorem place_output_eq_ok_iff {n : DataNode} {k : Nat} {s : OutputSocket} :
    g.place (.output s) = .ok (n, k) ↔ ∃ targets, g.outputs[s.index]? = some ⟨n, k, targets⟩ := by
  simp only [place, map_eq_ok_iff, output_eq_ok_iff, Prod.mk.injEq]
  constructor
  · rintro ⟨e, he, rfl, rfl⟩
    exact ⟨e.targets, he⟩
  · rintro ⟨targets, he⟩
    exact ⟨_, he, rfl, rfl⟩

theorem inputSocket_eq_ok_iff {n : DataNode} {k : Nat} {s : InputSocket} :
    g.inputSocket n k = .ok s ↔ ∃ entry, g.nodes[n.index]? = some entry ∧ k < entry.inputCount ∧
      s = ⟨entry.firstInput + k⟩ := by
  simp only [inputSocket, bind_eq_ok_iff, node_eq_ok_iff]
  refine exists_congr fun entry => and_congr_right fun _ => ?_
  by_cases hk : k < entry.inputCount <;> simp [hk, eq_comm]

theorem outputSocket_eq_ok_iff {n : DataNode} {k : Nat} {s : OutputSocket} :
    g.outputSocket n k = .ok s ↔ ∃ entry, g.nodes[n.index]? = some entry ∧ k < entry.outputCount ∧
      s = ⟨entry.firstOutput + k⟩ := by
  simp only [outputSocket, bind_eq_ok_iff, node_eq_ok_iff]
  refine exists_congr fun entry => and_congr_right fun _ => ?_
  by_cases hk : k < entry.outputCount <;> simp [hk, eq_comm]

theorem parameter_input_eq_ok_iff {s : InputSocket} {p : Parameter} : g.parameter (.input s) = .ok p ↔
    ∃ e entry, g.inputs[s.index]? = some e ∧ g.nodes[e.node.index]? = some entry ∧
      entry.function.inputs[e.position]? = some p := by
  simp only [parameter, place, function, map_eq_ok_iff, bind_eq_ok_iff, input_eq_ok_iff, node_eq_ok_iff,
    elementAt_eq_ok_iff]
  constructor
  · rintro ⟨_, ⟨e, he, rfl⟩, _, ⟨entry, hn, rfl⟩, hp⟩
    exact ⟨e, entry, he, hn, hp⟩
  · rintro ⟨e, entry, he, hn, hp⟩
    exact ⟨_, ⟨e, he, rfl⟩, _, ⟨entry, hn, rfl⟩, hp⟩

theorem parameter_output_eq_ok_iff {s : OutputSocket} {p : Parameter} : g.parameter (.output s) = .ok p ↔
    ∃ e entry, g.outputs[s.index]? = some e ∧ g.nodes[e.node.index]? = some entry ∧
      entry.function.outputs[e.position]? = some p := by
  simp only [parameter, place, function, map_eq_ok_iff, bind_eq_ok_iff, output_eq_ok_iff, node_eq_ok_iff,
    elementAt_eq_ok_iff]
  constructor
  · rintro ⟨_, ⟨e, he, rfl⟩, _, ⟨entry, hn, rfl⟩, hp⟩
    exact ⟨e, entry, he, hn, hp⟩
  · rintro ⟨e, entry, he, hn, hp⟩
    exact ⟨_, ⟨e, he, rfl⟩, _, ⟨entry, hn, rfl⟩, hp⟩

theorem inputType_eq_ok_iff {s : InputSocket} {t : ValueType} :
    g.inputType s = .ok t ↔ ∃ e entry p, g.inputs[s.index]? = some e ∧
      g.nodes[e.node.index]? = some entry ∧ entry.function.inputs[e.position]? = some p ∧ p.type = t := by
  simp only [inputType, map_eq_ok_iff, parameter_input_eq_ok_iff]
  constructor
  · rintro ⟨p, ⟨e, entry, he, hn, hp⟩, ht⟩
    exact ⟨e, entry, p, he, hn, hp, ht⟩
  · rintro ⟨e, entry, p, he, hn, hp, ht⟩
    exact ⟨p, ⟨e, entry, he, hn, hp⟩, ht⟩

theorem outputType_eq_ok_iff {s : OutputSocket} {t : ValueType} :
    g.outputType s = .ok t ↔ ∃ e entry p, g.outputs[s.index]? = some e ∧
      g.nodes[e.node.index]? = some entry ∧ entry.function.outputs[e.position]? = some p ∧ p.type = t := by
  simp only [outputType, map_eq_ok_iff, parameter_output_eq_ok_iff]
  constructor
  · rintro ⟨p, ⟨e, entry, he, hn, hp⟩, ht⟩
    exact ⟨e, entry, p, he, hn, hp, ht⟩
  · rintro ⟨e, entry, p, he, hn, hp, ht⟩
    exact ⟨p, ⟨e, entry, he, hn, hp⟩, ht⟩

end Wiring

namespace DataGraphBuilder

variable {b b' : DataGraphBuilder}

/-- The states of a graph under construction. -/
inductive Reachable : DataGraphBuilder → Prop
  | empty : Reachable {}
  | insert {b : DataGraphBuilder} (h : Reachable b) (f : Function) (source : Option SourceInfo) :
      Reachable (b.insert f source).2
  | link {b b' : DataGraphBuilder} (h : Reachable b) (source : OutputSocket) (target : InputSocket)
      (hl : b.link source target = .ok (.ok b')) : Reachable b'

theorem link_eq_ok_iff {source : OutputSocket} {target : InputSocket} :
    b.link source target = .ok (.ok b') ↔
      (∃ e, b.inputs[target.index]? = some e ∧ e.origin = none) ∧
        (∃ t, b.outputType source = .ok t ∧ b.inputType target = .ok t) ∧ b' = b.record source target := by
  simp only [link, isLinked, bind_eq_ok_iff, map_eq_ok_iff, Wiring.input_eq_ok_iff]
  constructor
  · rintro ⟨linked, ⟨e, he, rfl⟩, h⟩
    split at h
    · cases h
    · rename_i hnone
      simp only [bind_eq_ok_iff] at h
      obtain ⟨s, hs, t, ht, h⟩ := h
      split at h
      · cases h
      · rename_i heq
        cases h
        refine ⟨⟨e, he, by simpa using hnone⟩, ⟨t, ?_, ht⟩, rfl⟩
        rw [hs, not_not.mp heq]
  · rintro ⟨⟨e, he, hnone⟩, ⟨t, hs, ht⟩, rfl⟩
    refine ⟨_, ⟨e, he, rfl⟩, ?_⟩
    simp [hnone, hs, ht, bind, Except.bind, pure, Except.pure]

/-- A later state of the same construction: nodes, places and links stay as they are. -/
structure Extends (b b' : DataGraphBuilder) : Prop where
  nodes : ∀ {n : Nat} {entry : NodeEntry}, b.nodes[n]? = some entry → b'.nodes[n]? = some entry
  inputs : ∀ {s : Nat} {e : InputEntry (Option OutputSocket)}, b.inputs[s]? = some e →
    ∃ origin, b'.inputs[s]? = some { e with origin } ∧ (e.origin.isSome → origin = e.origin)
  outputs : ∀ {s : Nat} {e : OutputEntry}, b.outputs[s]? = some e →
    ∃ targets, b'.outputs[s]? = some { e with targets }

theorem Extends.refl (b : DataGraphBuilder) : Extends b b :=
  ⟨id, fun h => ⟨_, h, fun _ => rfl⟩, fun h => ⟨_, h⟩⟩

theorem Extends.trans {c : DataGraphBuilder} (h : Extends b b') (h' : Extends b' c) : Extends b c := by
  refine ⟨fun hn => h'.nodes (h.nodes hn), fun hs => ?_, fun hs => ?_⟩
  · obtain ⟨origin, hb, ho⟩ := h.inputs hs
    obtain ⟨origin', hc, ho'⟩ := h'.inputs hb
    refine ⟨origin', hc, fun hsome => ?_⟩
    rw [← ho hsome]
    exact ho' (by rw [ho hsome]; exact hsome)
  · obtain ⟨targets, hb⟩ := h.outputs hs
    obtain ⟨targets', hc⟩ := h'.outputs hb
    exact ⟨targets', hc⟩

theorem Extends.inputType (h : Extends b b') {s : InputSocket} {t : ValueType}
    (ht : b.inputType s = .ok t) : b'.inputType s = .ok t := by
  obtain ⟨e, entry, p, he, hn, hp, rfl⟩ := Wiring.inputType_eq_ok_iff.mp ht
  obtain ⟨origin, he', -⟩ := h.inputs he
  exact Wiring.inputType_eq_ok_iff.mpr ⟨_, entry, p, he', h.nodes hn, hp, rfl⟩

theorem Extends.outputType (h : Extends b b') {s : OutputSocket} {t : ValueType}
    (ht : b.outputType s = .ok t) : b'.outputType s = .ok t := by
  obtain ⟨e, entry, p, he, hn, hp, rfl⟩ := Wiring.outputType_eq_ok_iff.mp ht
  obtain ⟨targets, he'⟩ := h.outputs he
  exact Wiring.outputType_eq_ok_iff.mpr ⟨_, entry, p, he', h.nodes hn, hp, rfl⟩

theorem getElem?_append_rangeMap {α : Type} (xs : Array α) (f : Nat → α) (n i : Nat) :
    (xs ++ (Array.range n).map f)[i]? =
      if i < xs.size then xs[i]? else if i - xs.size < n then some (f (i - xs.size)) else none := by
  rw [Array.getElem?_append]
  refine if_congr Iff.rfl rfl ?_
  by_cases hn : i - xs.size < n <;> simp [hn]

variable (f : Function) (source : Option SourceInfo)

theorem extends_insert (b : DataGraphBuilder) : Extends b (b.insert f source).2 := by
  refine ⟨fun hn => ?_, fun {s e} hs => ⟨e.origin, ?_, fun _ => rfl⟩, fun {s e} hs => ⟨e.targets, ?_⟩⟩
  · obtain ⟨hlt, rfl⟩ := Array.getElem?_eq_some_iff.mp hn
    simp [insert, Array.getElem?_push, hlt, Nat.ne_of_lt hlt]
  · have hlt := (Array.getElem?_eq_some_iff.mp hs).1
    refine Eq.trans ?_ hs
    simp only [insert, getElem?_append_rangeMap, hlt, if_true]
  · have hlt := (Array.getElem?_eq_some_iff.mp hs).1
    refine Eq.trans ?_ hs
    simp only [insert, getElem?_append_rangeMap, hlt, if_true]

theorem node_insert (b : DataGraphBuilder) : (b.insert f source).2.nodes[b.nodes.size]? =
    some ⟨f, source, b.inputs.size, b.outputs.size⟩ := by
  simp [insert]

theorem input_insert (b : DataGraphBuilder) {k : Nat} (hk : k < f.inputs.size) :
    (b.insert f source).2.inputs[b.inputs.size + k]? = some ⟨⟨b.nodes.size⟩, k, none⟩ := by
  simp [insert, hk]

theorem output_insert (b : DataGraphBuilder) {k : Nat} (hk : k < f.outputs.size) :
    (b.insert f source).2.outputs[b.outputs.size + k]? = some ⟨⟨b.nodes.size⟩, k, []⟩ := by
  simp [insert, hk]

theorem input_insert_cases {s : Nat} {e : InputEntry (Option OutputSocket)}
    (h : (b.insert f source).2.inputs[s]? = some e) : b.inputs[s]? = some e ∨
      ∃ k < f.inputs.size, s = b.inputs.size + k ∧ e = ⟨⟨b.nodes.size⟩, k, none⟩ := by
  simp only [insert, getElem?_append_rangeMap] at h
  split at h
  · exact .inl h
  · split at h
    · rename_i hlt hk
      exact .inr ⟨_, hk, by omega, (Option.some.inj h).symm⟩
    · cases h

theorem output_insert_cases {s : Nat} {e : OutputEntry}
    (h : (b.insert f source).2.outputs[s]? = some e) : b.outputs[s]? = some e ∨
      ∃ k < f.outputs.size, s = b.outputs.size + k ∧ e = ⟨⟨b.nodes.size⟩, k, []⟩ := by
  simp only [insert, getElem?_append_rangeMap] at h
  split at h
  · exact .inl h
  · split at h
    · rename_i hlt hk
      exact .inr ⟨_, hk, by omega, (Option.some.inj h).symm⟩
    · cases h

theorem node_insert_cases {n : Nat} {entry : NodeEntry}
    (h : (b.insert f source).2.nodes[n]? = some entry) : b.nodes[n]? = some entry ∨
      n = b.nodes.size ∧ entry = ⟨f, source, b.inputs.size, b.outputs.size⟩ := by
  simp only [insert, Array.getElem?_push] at h
  split at h
  · rename_i hn
    exact .inr ⟨hn, (Option.some.inj h).symm⟩
  · exact .inl h

theorem numbered_insert (h : Wiring.Numbered b) : Wiring.Numbered (b.insert f source).2 where
  input_at hn hk := by
    rcases node_insert_cases f source hn with hn | ⟨rfl, rfl⟩
    · obtain ⟨origin, hs⟩ := h.input_at hn hk
      exact ⟨_, ((extends_insert f source b).inputs hs).choose_spec.1⟩
    · exact ⟨none, input_insert f source b hk⟩
  output_at hn hk := by
    rcases node_insert_cases f source hn with hn | ⟨rfl, rfl⟩
    · obtain ⟨targets, hs⟩ := h.output_at hn hk
      exact ⟨_, ((extends_insert f source b).outputs hs).choose_spec⟩
    · exact ⟨[], output_insert f source b hk⟩
  input_place hs := by
    rcases input_insert_cases f source hs with hs | ⟨k, hk, rfl, rfl⟩
    · obtain ⟨entry, hn, hp⟩ := h.input_place hs
      exact ⟨entry, (extends_insert f source b).nodes hn, hp⟩
    · exact ⟨_, node_insert f source b, hk, rfl⟩
  output_place hs := by
    rcases output_insert_cases f source hs with hs | ⟨k, hk, rfl, rfl⟩
    · obtain ⟨entry, hn, hp⟩ := h.output_place hs
      exact ⟨entry, (extends_insert f source b).nodes hn, hp⟩
    · exact ⟨_, node_insert f source b, hk, rfl⟩

variable {o : OutputSocket} {i : InputSocket}

theorem extends_record (hi : ∀ e, b.inputs[i.index]? = some e → e.origin = none) :
    Extends b (b.record o i) := by
  refine ⟨id, fun {s e} hs => ?_, fun {s e} hs => ?_⟩
  · simp only [record, Array.getElem?_modify, hs]
    by_cases hsi : i.index = s
    · refine ⟨some o, by simp [hsi], fun hsome => ?_⟩
      rw [hi e (hsi ▸ hs)] at hsome
      cases hsome
    · exact ⟨e.origin, by simp [hsi], fun _ => rfl⟩
  · simp only [record, Array.getElem?_modify, hs]
    by_cases hso : o.index = s
    · exact ⟨e.targets ++ [i], by simp [hso]⟩
    · exact ⟨e.targets, by simp [hso]⟩

theorem input_record_cases {s : Nat} {e : InputEntry (Option OutputSocket)}
    (h : (b.record o i).inputs[s]? = some e) : b.inputs[s]? = some e ∨
      s = i.index ∧ ∃ e', b.inputs[s]? = some e' ∧ e = { e' with origin := some o } := by
  simp only [record, Array.getElem?_modify] at h
  split at h
  · rename_i hsi
    obtain ⟨e', he', rfl⟩ := Option.map_eq_some_iff.mp h
    exact .inr ⟨hsi.symm, e', he', rfl⟩
  · exact .inl h

theorem output_record_cases {s : Nat} {e : OutputEntry}
    (h : (b.record o i).outputs[s]? = some e) : b.outputs[s]? = some e ∨
      s = o.index ∧ ∃ e', b.outputs[s]? = some e' ∧ e = { e' with targets := e'.targets ++ [i] } := by
  simp only [record, Array.getElem?_modify] at h
  split at h
  · rename_i hso
    obtain ⟨e', he', rfl⟩ := Option.map_eq_some_iff.mp h
    exact .inr ⟨hso.symm, e', he', rfl⟩
  · exact .inl h

theorem numbered_record (h : Wiring.Numbered b) : Wiring.Numbered (b.record o i) where
  input_at {n entry k} hn hk := by
    obtain ⟨origin, hs⟩ := h.input_at hn hk
    simp only [record, Array.getElem?_modify, hs]
    split <;> simp
  output_at {n entry k} hn hk := by
    obtain ⟨targets, hs⟩ := h.output_at hn hk
    simp only [record, Array.getElem?_modify, hs]
    split <;> simp
  input_place hs := by
    rcases input_record_cases hs with hs | ⟨-, e', he', rfl⟩
    · exact h.input_place hs
    · have hp := h.input_place he'
      exact hp
  output_place hs := by
    rcases output_record_cases hs with hs | ⟨-, e', he', rfl⟩
    · exact h.output_place hs
    · have hp := h.output_place he'
      exact hp

/-- Nodes and sockets name each other, and what is linked has one type. -/
structure WellTyped (b : DataGraphBuilder) : Prop extends Wiring.Numbered b where
  typed : ∀ {s : Nat} {e : InputEntry (Option OutputSocket)} {o : OutputSocket},
    b.inputs[s]? = some e → e.origin = some o → ∃ t, b.outputType o = .ok t ∧ b.inputType ⟨s⟩ = .ok t

theorem WellTyped.insert (h : WellTyped b) : WellTyped (b.insert f source).2 := by
  refine ⟨numbered_insert f source h.toNumbered, fun hs ho => ?_⟩
  rcases input_insert_cases f source hs with hs | ⟨k, -, -, rfl⟩
  · obtain ⟨t, hout, hin⟩ := h.typed hs ho
    exact ⟨t, (extends_insert f source b).outputType hout, (extends_insert f source b).inputType hin⟩
  · cases ho

theorem WellTyped.link (h : WellTyped b) (hl : b.link o i = .ok (.ok b')) :
    WellTyped b' ∧ Extends b b' := by
  obtain ⟨⟨e, he, hnone⟩, ⟨t, hout, hin⟩, rfl⟩ := link_eq_ok_iff.mp hl
  have hext : Extends b (b.record o i) := extends_record fun e' he' => by
    rw [he] at he'
    cases he'
    exact hnone
  refine ⟨⟨numbered_record h.toNumbered, fun hs ho => ?_⟩, hext⟩
  rcases input_record_cases hs with hs | ⟨rfl, e', -, rfl⟩
  · obtain ⟨t, hout, hin⟩ := h.typed hs ho
    exact ⟨t, hext.outputType hout, hext.inputType hin⟩
  · cases ho
    exact ⟨t, hext.outputType hout, hext.inputType hin⟩

theorem wellTyped_empty : WellTyped {} := by
  refine ⟨⟨?_, ?_, ?_, ?_⟩, ?_⟩ <;> intros <;> simp_all

theorem Reachable.wellTyped (h : Reachable b) : WellTyped b := by
  induction h with
  | empty => exact wellTyped_empty
  | insert _ f source ih => exact ih.insert f source
  | link _ o i hl ih => exact (ih.link hl).1

end DataGraphBuilder
end Nodeflow
