import Nodeflow.Builtin.Conversion
import Nodeflow.Proofs.Builtin.Operation
import Nodeflow.Proofs.DataGraph.Wiring

/-!
# Growing data graphs

A graph under construction grows by links to inputs that have none yet, and by nodes that carry out
operations and take their inputs from earlier nodes: the conversions and the constants.
-/

namespace Nodeflow

theorem exists_of_conversion? {source target : ValueType} {f : Function}
    (h : Builtin.conversion? source target = some f) : (∃ op : Operation, f = op.function) ∧
      ∃ p q, f.inputs = #[p] ∧ f.outputs = #[q] ∧ p.type = source ∧ q.type = target := by
  unfold Builtin.conversion? at h
  split at h
  · cases h
    exact ⟨⟨.intToFloat, rfl⟩, _, _, rfl, rfl, rfl, rfl⟩
  · cases h
    exact ⟨⟨.floatToInt, rfl⟩, _, _, rfl, rfl, rfl, rfl⟩
  · cases h

/-- A value of one type can be given to an input of another. -/
def Convertible (source target : ValueType) : Prop :=
  source = target ∨ (Builtin.conversion? source target).isSome

namespace DataGraphBuilder

variable {b b' b'' : DataGraphBuilder} {s : InputSocket} {o : OutputSocket} {entry : NodeEntry} {N m m' : Nat}

def HasOrigin (b : DataGraphBuilder) (s : InputSocket) (o : OutputSocket) : Prop :=
  ∃ e, b.inputs[s.index]? = some e ∧ e.origin = some o

def Unlinked (b : DataGraphBuilder) (s : InputSocket) : Prop :=
  ∃ e, b.inputs[s.index]? = some e ∧ e.origin = none

/-- An input takes its value from an output, converted if their types differ. -/
inductive Carries (b : DataGraphBuilder) (o : OutputSocket) (s : InputSocket) : Prop
  | direct (h : HasOrigin b s o)
  | converted {source target : ValueType} {f : Function} {n : Nat} {entry : NodeEntry}
      (hs : b.outputType o = .ok source) (ht : b.inputType s = .ok target)
      (hf : Builtin.conversion? source target = some f) (hn : b.nodes[n]? = some entry)
      (he : entry.function = f) (hin : HasOrigin b ⟨entry.firstInput⟩ o)
      (hout : HasOrigin b s ⟨entry.firstOutput⟩) : Carries b o s

def TakesConstant (b : DataGraphBuilder) (s : InputSocket) (v : Value) : Prop :=
  ∃ (n : Nat) (entry : NodeEntry), b.nodes[n]? = some entry ∧ entry.function = Builtin.constant v ∧
    HasOrigin b s ⟨entry.firstOutput⟩

theorem Extends.hasOrigin (h : Extends b b') (ho : HasOrigin b s o) : HasOrigin b' s o := by
  obtain ⟨e, he, horigin⟩ := ho
  obtain ⟨origin, he', hkeep⟩ := h.inputs he
  exact ⟨_, he', (hkeep (by rw [horigin]; rfl)).trans horigin⟩

theorem Extends.carries (h : Extends b b') (hc : Carries b o s) : Carries b' o s := by
  cases hc with
  | direct ho => exact .direct (h.hasOrigin ho)
  | converted hs ht hf hn he hin hout =>
      exact .converted (h.outputType hs) (h.inputType ht) hf (h.nodes hn) he (h.hasOrigin hin)
        (h.hasOrigin hout)

theorem Carries.hasOrigin (h : Carries b o s) : ∃ o', HasOrigin b s o' := by
  cases h with
  | direct h => exact ⟨o, h⟩
  | converted _ _ _ _ _ _ hout => exact ⟨_, hout⟩

theorem Extends.takesConstant {v : Value} (h : Extends b b') (hc : TakesConstant b s v) :
    TakesConstant b' s v := by
  obtain ⟨n, entry, hn, hf, ho⟩ := hc
  exact ⟨n, entry, h.nodes hn, hf, h.hasOrigin ho⟩

/-- A node that carries out an operation on values of the first `N` nodes, one at most. -/
structure Extra (N : Nat) (b : DataGraphBuilder) (entry : NodeEntry) : Prop where
  operation : ∃ op : Operation, entry.function = op.function
  inputs_le : entry.inputCount ≤ 1
  linked : ∀ k < entry.inputCount, ∃ o e, HasOrigin b ⟨entry.firstInput + k⟩ o ∧
    b.outputs[o.index]? = some e ∧ e.node.index < N

theorem Extra.extends (h : Extra N b entry) (hext : Extends b b') : Extra N b' entry := by
  refine ⟨h.operation, h.inputs_le, fun k hk => ?_⟩
  obtain ⟨o, e, ho, he, hlt⟩ := h.linked k hk
  obtain ⟨targets, he'⟩ := hext.outputs he
  exact ⟨o, _, hext.hasOrigin ho, he', hlt⟩

/-- A later state with at most `m` further nodes, all of them extra ones. -/
structure Grows (N m : Nat) (b b' : DataGraphBuilder) : Prop where
  keeps : Extends b b'
  typed : WellTyped b'
  nodes : b'.nodes.size ≤ b.nodes.size + m
  extra : ∀ {n : Nat} {entry : NodeEntry}, b'.nodes[n]? = some entry → b.nodes.size ≤ n → Extra N b' entry

/-- A later state in which inputs other than one have the origins they had. -/
structure Spares (b b' : DataGraphBuilder) (s : InputSocket) : Prop where
  others : ∀ {i : Nat} {e : InputEntry (Option OutputSocket)}, b.inputs[i]? = some e → i ≠ s.index →
    b'.inputs[i]? = some e

theorem Grows.refl (h : WellTyped b) : Grows N 0 b b :=
  ⟨.refl b, h, Nat.le_refl _, fun hn hle => absurd (Array.getElem?_eq_some_iff.mp hn).1 (by omega)⟩

theorem Grows.trans (h : Grows N m b b') (h' : Grows N m' b' b'') : Grows N (m + m') b b'' := by
  refine ⟨h.keeps.trans h'.keeps, h'.typed, ?_, fun {n entry} hn hle => ?_⟩
  · have := h.nodes
    have := h'.nodes
    omega
  · by_cases hlt : n < b'.nodes.size
    · have hn' := Array.getElem?_eq_getElem hlt
      rw [h'.keeps.nodes hn', Option.some.injEq] at hn
      exact (h.extra (hn ▸ hn') hle).extends h'.keeps
    · exact h'.extra hn (by omega)

theorem Grows.mono (h : Grows N m b b') (hm : m ≤ m') : Grows N m' b b' :=
  ⟨h.keeps, h.typed, Nat.le_trans h.nodes (by omega), h.extra⟩

theorem Spares.unlinked (h : Spares b b' s) {s' : InputSocket} (hu : Unlinked b s') (hne : s' ≠ s) :
    Unlinked b' s' := by
  obtain ⟨e, he, ho⟩ := hu
  refine ⟨e, h.others he fun hi => hne ?_, ho⟩
  obtain ⟨i⟩ := s
  obtain ⟨i'⟩ := s'
  cases hi
  rfl

/-! ## Links -/

theorem link_eq {e : InputEntry (Option OutputSocket)} {source target : ValueType}
    (he : b.inputs[s.index]? = some e) (hs : b.outputType o = .ok source) (ht : b.inputType s = .ok target) :
    b.link o s = .ok (if e.origin.isSome then .error (.alreadyLinked s)
      else if source ≠ target then .error (.typeMismatch source target) else .ok (b.record o s)) := by
  have hlinked : b.isLinked s = .ok e.origin.isSome := by
    rw [isLinked, Wiring.input_eq_ok_iff.mpr he]
    rfl
  rw [link, hlinked, ok_bind]
  split
  · rfl
  · rw [hs, ht]
    simp only [ok_bind]
    split <;> rfl

theorem link_eq_record {type : ValueType} (hu : Unlinked b s) (hs : b.outputType o = .ok type)
    (ht : b.inputType s = .ok type) : b.link o s = .ok (.ok (b.record o s)) := by
  obtain ⟨e, he, ho⟩ := hu
  rw [link_eq he hs ht, ho]
  simp

theorem hasOrigin_record (hu : Unlinked b s) : HasOrigin (b.record o s) s o := by
  obtain ⟨e, he, -⟩ := hu
  exact ⟨{ e with origin := some o }, by simp [record, Array.getElem?_modify, he], rfl⟩

theorem spares_record : Spares b (b.record o s) s :=
  ⟨fun he hne => by simp [record, Array.getElem?_modify, he, Ne.symm hne]⟩

theorem grows_record (hb : WellTyped b) (hu : Unlinked b s) {type : ValueType} (hs : b.outputType o = .ok type)
    (ht : b.inputType s = .ok type) : Grows N 0 b (b.record o s) := by
  obtain ⟨htyped, hext⟩ := hb.link (link_eq_record hu hs ht)
  exact ⟨hext, htyped, Nat.le_refl _, fun hn hle =>
    absurd (Array.getElem?_eq_some_iff.mp hn).1 (Nat.not_lt.mpr hle)⟩

/-! ## Further nodes -/

variable (f : Function) (source : Option SourceInfo)

theorem input_insert_of_eq_some {i : Nat} {e : InputEntry (Option OutputSocket)} (he : b.inputs[i]? = some e) :
    (b.insert f source).2.inputs[i]? = some e := by
  obtain ⟨origin, he', -⟩ := (extends_insert f source b).inputs he
  rcases input_insert_cases f source he' with hold | ⟨k, -, rfl, -⟩
  · rw [he', ← hold, he]
  · exact absurd (Array.getElem?_eq_some_iff.mp he).1 (by omega)

theorem unlinked_insert {k : Nat} (hk : k < f.inputs.size) :
    Unlinked (b.insert f source).2 ⟨b.inputs.size + k⟩ :=
  ⟨_, input_insert f source b hk, rfl⟩

theorem inputType_insert {k : Nat} {p : Parameter} (hp : f.inputs[k]? = some p) :
    (b.insert f source).2.inputType ⟨b.inputs.size + k⟩ = .ok p.type :=
  Wiring.inputType_eq_ok_iff.mpr ⟨_, _, p, input_insert f source b (Array.getElem?_eq_some_iff.mp hp).1,
    node_insert f source b, hp, rfl⟩

theorem outputType_insert {k : Nat} {p : Parameter} (hp : f.outputs[k]? = some p) :
    (b.insert f source).2.outputType ⟨b.outputs.size + k⟩ = .ok p.type :=
  Wiring.outputType_eq_ok_iff.mpr ⟨_, _, p, output_insert f source b (Array.getElem?_eq_some_iff.mp hp).1,
    node_insert f source b, hp, rfl⟩

variable {f}

theorem grows_insert (hb : WellTyped b) (hop : ∃ op : Operation, f = op.function) (hin : f.inputs.size = 0) :
    Grows N 1 b (b.insert f source).2 := by
  refine ⟨extends_insert f source b, hb.insert f source, by simp [insert], fun {n entry} hn hle => ?_⟩
  rcases node_insert_cases f source hn with hn | ⟨-, rfl⟩
  · exact absurd (Array.getElem?_eq_some_iff.mp hn).1 (Nat.not_lt.mpr hle)
  · refine ⟨hop, ?_, fun k hk => absurd hk ?_⟩ <;> simp [NodeEntry.inputCount, hin]

section

variable {p : Parameter}

theorem extends_insert_record (hin : f.inputs = #[p]) :
    Extends (b.insert f source).2 ((b.insert f source).2.record o ⟨b.inputs.size⟩) := by
  refine extends_record fun e he => ?_
  have hnew := input_insert f source b (k := 0) (by simp [hin])
  rw [Nat.add_zero] at hnew
  rw [hnew] at he
  cases he
  rfl

theorem grows_insert_record (hb : WellTyped b) (hop : ∃ op : Operation, f = op.function)
    (hin : f.inputs = #[p]) (ho : b.outputType o = .ok p.type) {e : OutputEntry}
    (he : b.outputs[o.index]? = some e) (hN : e.node.index < N) :
    Grows N 1 b ((b.insert f source).2.record o ⟨b.inputs.size⟩) := by
  have hu := unlinked_insert f source (b := b) (k := 0) (by simp [hin])
  have hrecord := grows_record (N := N) (hb.insert f source) hu ((extends_insert f source b).outputType ho)
    (inputType_insert f source (by simp [hin]))
  have hext := (extends_insert f source b).trans hrecord.keeps
  refine ⟨hext, hrecord.typed, by simp [insert, record], fun {n entry} hn hle => ?_⟩
  rcases node_insert_cases f source (show (b.insert f source).2.nodes[n]? = some entry from hn) with
    hn | ⟨-, rfl⟩
  · exact absurd (Array.getElem?_eq_some_iff.mp hn).1 (Nat.not_lt.mpr hle)
  · refine ⟨hop, by simp [NodeEntry.inputCount, hin], fun k hk => ?_⟩
    obtain rfl : k = 0 := by simpa [NodeEntry.inputCount, hin] using hk
    obtain ⟨targets, he'⟩ := hext.outputs he
    exact ⟨o, _, hasOrigin_record hu, he', hN⟩

theorem input_insert_record_of_eq_some {i : Nat} {e : InputEntry (Option OutputSocket)}
    (he : b.inputs[i]? = some e) :
    ((b.insert f source).2.record o ⟨b.inputs.size⟩).inputs[i]? = some e := by
  have hlt := (Array.getElem?_eq_some_iff.mp he).1
  exact (spares_record (s := ⟨b.inputs.size⟩)).others (input_insert_of_eq_some f source he) (Nat.ne_of_lt hlt)

end

end DataGraphBuilder

end Nodeflow
