import Nodeflow.Proofs.DataGraph.Frozen
import Nodeflow.Proofs.DataGraph.Growing
import Nodeflow.Proofs.Walk.Circles

/-!
# Finishing data graphs

A well-typed graph under construction is finished or refused, and never a fault. It is refused for
its first input without an origin, or else for a node that lies on a circle.
-/

namespace Nodeflow

open Relation

namespace DataGraph

variable {g : DataGraph}

theorem exists_arrows (hg : Wiring.Numbered g)
    (ht : ∀ {s : Nat} {e : InputEntry OutputSocket}, g.inputs[s]? = some e →
      ∃ t, g.outputType e.origin = .ok t) :
    ∃ arrows, g.nodes.mapM g.feeders = .ok arrows := by
  obtain ⟨lists, hlists⟩ := exists_forall₂ (l := g.nodes.toList) (R := fun entry list => g.feeders entry = .ok list)
    fun entry hentry => by
      obtain ⟨n, hn⟩ := List.mem_iff_getElem?.mp hentry
      rw [Array.getElem?_toList] at hn
      obtain ⟨list, hlist⟩ := exists_forall₂ (l := entry.inputSockets)
        (R := fun s m => (do let origin ← g.output (← g.input s).origin; return origin.node.index) = .ok m) fun s hs => by
          simp only [NodeEntry.inputSockets, List.mem_map, List.mem_range'_1] at hs
          obtain ⟨i, ⟨hge, hlt⟩, rfl⟩ := hs
          obtain ⟨k, rfl⟩ := Nat.exists_eq_add_of_le hge
          obtain ⟨origin, he⟩ := hg.input_at hn (k := k) (by omega)
          obtain ⟨t, ht⟩ := ht he
          obtain ⟨e, -, -, ho, -⟩ := Wiring.outputType_eq_ok_iff.mp ht
          refine ⟨e.node.index, ?_⟩
          simp only [bind_eq_ok_iff, Wiring.input_eq_ok_iff, Wiring.output_eq_ok_iff, pure_eq_ok_iff]
          exact ⟨_, he, e, ho, rfl⟩
      exact ⟨list, mapM_eq_ok_iff.mpr hlist⟩
  refine ⟨lists.toArray, ?_⟩
  rw [Array.mapM_eq_mapM_toList, mapM_eq_ok_iff.mpr hlists]
  rfl

theorem leads_feeds {arrows : Array (List Nat)} (ha : g.nodes.mapM g.feeders = .ok arrows) {m n : Nat}
    (h : Leads arrows n m) : g.Feeds ⟨m⟩ ⟨n⟩ := by
  obtain ⟨hsize, harrows⟩ := array_mapM_eq_ok_iff.mp ha
  obtain ⟨targets, hn, hm, -⟩ := h
  have hlt : n < g.nodes.size := hsize ▸ (Array.getElem?_eq_some_iff.mp hn).1
  have hentry := Array.getElem?_eq_getElem hlt
  obtain ⟨targets', hn', hf⟩ := harrows hentry
  rw [hn] at hn'
  cases hn'
  obtain ⟨hlen, hfeeders⟩ := feeders_eq_ok_iff.mp hf
  obtain ⟨k, hk⟩ := List.mem_iff_getElem?.mp hm
  have hk' : k < g.nodes[n].inputCount := hlen ▸ (List.getElem?_eq_some_iff.mp hk).1
  obtain ⟨e, o, he, ho, hmem⟩ := hfeeders k hk'
  rw [hk] at hmem
  cases hmem
  exact ⟨_, k, e, o, hentry, hk', he, ho, rfl⟩

end DataGraph

namespace DataGraphBuilder

variable {b : DataGraphBuilder}

/-- No node feeds itself, as the ranks of nodes show. -/
def Ranked (b : DataGraphBuilder) (rank : Nat → Nat) : Prop :=
  ∀ {n k : Nat} {entry : NodeEntry} {o : OutputSocket} {e : OutputEntry}, b.nodes[n]? = some entry →
    k < entry.inputCount → HasOrigin b ⟨entry.firstInput + k⟩ o → b.outputs[o.index]? = some e →
      rank e.node.index < rank n

/-- An output of the first node is the origin of an input of the second one. -/
def Feeds (b : DataGraphBuilder) (m n : DataNode) : Prop :=
  ∃ o i k l, b.place (.output o) = .ok (m, k) ∧ b.place (.input i) = .ok (n, l) ∧ HasOrigin b i o

/-- An input without an origin, of the lowest number. -/
def FirstUnlinked (b : DataGraphBuilder) (i : InputSocket) : Prop :=
  Unlinked b i ∧ ∀ j, Unlinked b j → i.index ≤ j.index

theorem feeds_iff (hb : Wiring.Numbered b) {m n : DataNode} : b.Feeds m n ↔ ∃ entry k o e,
    b.nodes[n.index]? = some entry ∧ k < entry.inputCount ∧ HasOrigin b ⟨entry.firstInput + k⟩ o ∧
      b.outputs[o.index]? = some e ∧ e.node = m := by
  simp only [Feeds, Wiring.place_output_eq_ok_iff, Wiring.place_input_eq_ok_iff]
  constructor
  · rintro ⟨o, i, k, l, ⟨targets, hm⟩, ⟨origin, hn⟩, ho⟩
    obtain ⟨entry, he, hl, hi⟩ := hb.input_place hn
    exact ⟨entry, l, o, _, he, hl, by rwa [← hi], hm, rfl⟩
  · rintro ⟨entry, k, o, e, hn, hk, ho, he, rfl⟩
    exact ⟨o, _, e.position, k, ⟨e.targets, he⟩, hb.input_at hn hk, ho⟩

theorem Ranked.not_circle {rank : Nat → Nat} (hr : Ranked b rank) (hb : Wiring.Numbered b) (n : DataNode) :
    ¬TransGen b.Feeds n n := by
  refine not_transGen_self (fun n => rank n.index) (fun m n h => ?_) n
  obtain ⟨entry, k, o, e, hn, hk, ho, he, rfl⟩ := (feeds_iff hb).mp h
  exact hr hn hk ho he

section

variable {inputs : Array (InputEntry OutputSocket)}

theorem hasOrigin_iff_finished (ho : b.origins = .ok inputs) {s : InputSocket} {o : OutputSocket} :
    HasOrigin b s o ↔ ∃ e, inputs[s.index]? = some e ∧ e.origin = o := by
  constructor
  · rintro ⟨e, he, horigin⟩
    obtain ⟨origin, hsome, hat⟩ := (origins_eq_ok_iff.mp ho).2 he
    rw [horigin, Option.some.injEq] at hsome
    exact ⟨_, hat, hsome.symm⟩
  · rintro ⟨e, he, rfl⟩
    exact ⟨_, origin_of_finished ho he, rfl⟩

theorem not_unlinked_of_finished (ho : b.origins = .ok inputs) (i : InputSocket) : ¬Unlinked b i := by
  rintro ⟨e, he, hnone⟩
  obtain ⟨origin, hsome, -⟩ := (origins_eq_ok_iff.mp ho).2 he
  rw [hnone] at hsome
  cases hsome

theorem feeds_finished_iff (hb : Wiring.Numbered b) (ho : b.origins = .ok inputs) {m n : DataNode} :
    (b.finished inputs).Feeds m n ↔ b.Feeds m n := by
  rw [feeds_iff hb]
  simp only [hasOrigin_iff_finished ho]
  constructor
  · rintro ⟨entry, k, e, out, hn, hk, he, hout, hm⟩
    exact ⟨entry, k, e.origin, out, hn, hk, ⟨e, he, rfl⟩, hout, hm⟩
  · rintro ⟨entry, k, _, out, hn, hk, ⟨e, he, rfl⟩, hout, hm⟩
    exact ⟨entry, k, e, out, hn, hk, he, hout, hm⟩

/-- The search for cycles follows the links against their direction. -/
theorem WellTyped.circle_iff (hb : WellTyped b) (ho : b.origins = .ok inputs) {arrows : Array (List Nat)}
    (ha : (b.finished inputs).nodes.mapM (b.finished inputs).feeders = .ok arrows) {n : DataNode} :
    TransGen (Leads arrows) n.index n.index ↔ TransGen b.Feeds n n := by
  have hto (i j : Nat) (h : Leads arrows i j) : Function.swap b.Feeds ⟨i⟩ ⟨j⟩ :=
    (feeds_finished_iff hb.toNumbered ho).mp (DataGraph.leads_feeds ha h)
  have hfrom (i j : DataNode) (h : Function.swap b.Feeds i j) : Leads arrows i.index j.index :=
    ((feeds_finished_iff hb.toNumbered ho).mpr h).leads (hb.numbered_finished ho) ha
  exact Iff.trans ⟨TransGen.lift DataNode.mk hto n.index n.index, TransGen.lift DataNode.index hfrom n n⟩ transGen_swap

theorem WellTyped.cycle_cases (hb : WellTyped b) (ho : b.origins = .ok inputs) :
    (b.finished inputs).cycle? = .ok none ∧ (∀ n, ¬TransGen b.Feeds n n) ∨
      ∃ n f, (b.finished inputs).cycle? = .ok (some n) ∧ b.function n = .ok f ∧ TransGen b.Feeds n n := by
  have hnum := hb.numbered_finished ho
  obtain ⟨arrows, ha⟩ := DataGraph.exists_arrows hnum fun he => (hb.typed_finished ho he).imp fun _ h => h.1
  have hcycle : (b.finished inputs).cycle? =
      .ok ((walkFrom arrows (List.range arrows.size)).cycle.map .mk) := by
    rw [DataGraph.cycle?, ha, ← (array_mapM_eq_ok_iff.mp ha).1]
    rfl
  rw [hcycle]
  cases hc : (walkFrom arrows (List.range arrows.size)).cycle with
  | none =>
      exact .inl ⟨rfl, fun n hn => cycle_walkFrom_eq_none_iff.mp hc n.index ((hb.circle_iff ho ha).mpr hn)⟩
  | some n =>
      have hn : TransGen b.Feeds ⟨n⟩ ⟨n⟩ := (hb.circle_iff ho ha).mp ((Walk.nested_walkFrom arrows _).circle n hc)
      obtain ⟨m, -, hm⟩ := TransGen.tail'_iff.mp hn
      obtain ⟨entry, -, -, -, hentry, -⟩ := (feeds_iff hb.toNumbered).mp hm
      refine .inr ⟨⟨n⟩, entry.function, rfl, ?_, hn⟩
      rw [Wiring.function, Wiring.node_eq_ok_iff.mpr hentry]
      rfl

end

theorem first_of_origins_eq_error {entry : InputEntry (Option OutputSocket)} (ho : b.origins = .error entry) :
    ∃ i : InputSocket, b.inputs[i.index]? = some entry ∧ FirstUnlinked b i := by
  rw [origins, Array.mapM_eq_mapM_toList] at ho
  obtain ⟨before, entry', after, hsplit, he, hbefore⟩ :=
    exists_split_of_mapM_eq_error (functor_map_eq_error_iff.mp ho)
  cases horigin : entry'.origin with
  | some origin => simp [horigin] at he
  | none =>
      obtain rfl : entry' = entry := by simpa [horigin] using he
      have hat : b.inputs[before.length]? = some entry' := by
        rw [← Array.getElem?_toList, hsplit]
        simp
      refine ⟨⟨before.length⟩, hat, ⟨entry', hat, horigin⟩, ?_⟩
      rintro j ⟨e, hj, hnone⟩
      by_contra hlt
      rw [← Array.getElem?_toList, hsplit, List.getElem?_append_left (Nat.lt_of_not_le hlt)] at hj
      obtain ⟨y, hy⟩ := hbefore e (List.mem_of_getElem? hj)
      simp [hnone] at hy

/-- What finishing a graph answers. -/
inductive Decides (b : DataGraphBuilder) : Except DataGraphError DataGraph → Prop
  | unlinked {i : InputSocket} {n : DataNode} {k : Nat} {f : Function} {p : Parameter} (h : FirstUnlinked b i)
      (hi : b.place (.input i) = .ok (n, k)) (hf : b.function n = .ok f) (hp : f.inputs[k]? = some p) :
      Decides b (.error (.unlinkedInput f.name p.name))
  | circle {n : DataNode} {f : Function} (h : ∀ i, ¬Unlinked b i) (hn : TransGen b.Feeds n n)
      (hf : b.function n = .ok f) : Decides b (.error (.cycle f.name))
  | finished {g : DataGraph} (h : ∀ i, ¬Unlinked b i) (hn : ∀ n, ¬TransGen b.Feeds n n) : Decides b (.ok g)

theorem WellTyped.decides_unlinked (hb : WellTyped b) {entry : InputEntry (Option OutputSocket)} {i : InputSocket}
    (hi : b.inputs[i.index]? = some entry) (h : FirstUnlinked b i) :
    ∃ e, b.unlinked entry = .ok e ∧ Decides b (.error e) := by
  obtain ⟨n, hn, hlt, -⟩ := hb.input_place hi
  have hfunction : b.function entry.node = .ok n.function := by
    rw [Wiring.function, Wiring.node_eq_ok_iff.mpr hn]
    rfl
  have hp : n.function.inputs[entry.position]? = some n.function.inputs[entry.position] := Array.getElem?_eq_getElem hlt
  refine ⟨_, ?_, .unlinked h (Wiring.place_input_eq_ok_iff.mpr ⟨entry.origin, hi⟩) hfunction hp⟩
  rw [unlinked, hfunction, ok_bind, elementAt_eq_ok_iff.mpr hp]
  rfl

theorem WellTyped.exists_decides (hb : WellTyped b) : ∃ answer, b.build = .ok answer ∧ Decides b answer := by
  cases ho : b.origins with
  | error entry =>
      obtain ⟨i, hi, hfirst⟩ := first_of_origins_eq_error ho
      obtain ⟨e, he, hdecides⟩ := hb.decides_unlinked hi hfirst
      refine ⟨_, ?_, hdecides⟩
      rw [build, ho]
      dsimp only
      rw [he]
      rfl
  | ok inputs =>
      have hall := not_unlinked_of_finished ho
      rcases hb.cycle_cases ho with ⟨hcycle, hn⟩ | ⟨n, f, hcycle, hf, hn⟩
      · refine ⟨.ok (b.finished inputs), ?_, .finished hall hn⟩
        rw [build, ho]
        change ((b.finished inputs).cycle? >>= _) = _
        rw [hcycle]
        rfl
      · refine ⟨_, ?_, .circle hall hn hf⟩
        rw [build, ho]
        change ((b.finished inputs).cycle? >>= _) = _
        rw [hcycle]
        change ((b.finished inputs).function n >>= _) = _
        rw [show (b.finished inputs).function n = .ok f from hf]
        rfl

/-- A well-typed graph that is refused has an input without origin, or no ranks. -/
theorem WellTyped.build_cases (hb : WellTyped b) : (∃ g, b.build = .ok (.ok g)) ∨
    ∃ e, b.build = .ok (.error e) ∧ ((∃ s, Unlinked b s) ∨ ¬∃ rank, Ranked b rank) := by
  obtain ⟨answer, hbuild, hdecides⟩ := hb.exists_decides
  cases hdecides with
  | unlinked h => exact .inr ⟨_, hbuild, .inl ⟨_, h.1⟩⟩
  | circle _ hn => exact .inr ⟨_, hbuild, .inr fun ⟨_, hr⟩ => hr.not_circle hb.toNumbered _ hn⟩
  | finished => exact .inl ⟨_, hbuild⟩

theorem HasOrigin.finished {g : DataGraph} {s : InputSocket} {o : OutputSocket} (ho : HasOrigin b s o)
    (h : b.build = .ok (.ok g)) : ∃ e, g.inputs[s.index]? = some e ∧ e.origin = o :=
  (hasOrigin_iff_finished (build_eq_ok_iff.mp h).1).mp ho

theorem WellTyped.exists_ranked (hb : WellTyped b) {g : DataGraph} (h : b.build = .ok (.ok g)) :
    ∃ rank, Ranked b rank := by
  obtain ⟨rank, hrank⟩ := (hb.frozen h).descends
  obtain ⟨-, hnodes, houtputs, -⟩ := build_eq_ok_iff.mp h
  refine ⟨fun n => rank ⟨n⟩, fun {n k entry o e} hn hk ho he => hrank _ ⟨n⟩ ?_⟩
  obtain ⟨input, hat, rfl⟩ := ho.finished h
  exact ⟨entry, k, input, e, hnodes ▸ hn, hk, hat, houtputs ▸ he, rfl⟩

end DataGraphBuilder

end Nodeflow
