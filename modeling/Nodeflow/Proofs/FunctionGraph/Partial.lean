import Nodeflow.Proofs.FunctionGraph.Bodies

/-!
# Partial arguments

The value of a socket is computed from the arguments that the socket depends on. The others have no
part in it, and may be missing.
-/

namespace Nodeflow

namespace Tuple

variable {t : Tuple} {layout : Array Parameter}

theorem isFilled_eq_true_iff {i : Nat} : t.isFilled i = .ok true ↔ ∃ v, t.contents[i]? = some (some v) := by
  simp only [isFilled_eq_ok_iff, value?_eq_ok_iff, getElem?_contents, Option.map_eq_some_iff]
  constructor
  · rintro ⟨_, ⟨slot, hs, rfl⟩, hsome⟩
    obtain ⟨v, hv⟩ := Option.isSome_iff_exists.mp hsome
    exact ⟨v, slot, hs, hv⟩
  · rintro ⟨v, slot, hs, hv⟩
    exact ⟨_, ⟨slot, hs, rfl⟩, by rw [hv]; rfl⟩

theorem getElem?_contents_eq {t' : Tuple} {i : Nat} (h : t.value? i = t'.value? i) :
    t.contents[i]? = t'.contents[i]? := by
  rw [value?, value?, elementAt, elementAt] at h
  rw [getElem?_contents, getElem?_contents]
  cases hs : t.slots[i]? <;> cases hs' : t'.slots[i]? <;> simp_all [Except.map]

theorem Fits.getElem?_layout (h : t.Fits layout) {i : Nat} {slot : Slot} (hs : t.slots[i]? = some slot) :
    layout[i]? = some slot.parameter := by
  rw [← h.layout, Tuple.layout, Array.getElem?_map, hs, Option.map_some]

theorem Fits.size_eq (h : t.Fits layout) : t.slots.size = layout.size := by
  rw [← h.layout, Tuple.layout, Array.size_map]

theorem Fits.exists_full (h : t.Fits layout) : ∃ args, Typed args layout ∧
    ∀ (i : Nat) v, t.contents[i]? = some (some v) → args[i]? = some v := by
  obtain ⟨args, hargs⟩ := exists_forall₂ (l := t.slots.toList)
    (R := fun slot v => v.type = slot.parameter.type ∧ ∀ w, slot.content = some w → v = w) fun slot hs => by
      cases hc : slot.content with
      | none => exact ⟨slot.parameter.type.default, ValueType.type_default _, fun w hw => by cases hw⟩
      | some v => exact ⟨v, h.typed slot hs v hc, fun w hw => Option.some.inj hw⟩
  refine ⟨args, ?_, fun i v hi => ?_⟩
  · rw [Typed, ← h.layout, Tuple.layout, Array.toList_map, List.forall₂_map_right_iff]
    exact (hargs.imp fun _ _ hv => hv.1).flip
  · rw [getElem?_contents, Option.map_eq_some_iff] at hi
    obtain ⟨slot, hs, hc⟩ := hi
    obtain ⟨v', hv', -, heq⟩ := (forall₂_iff_getElem?.mp hargs).2 (by rwa [Array.getElem?_toList])
    rw [hv', heq v hc]

end Tuple

namespace Function

/-- Tuples for a call that has all arguments on which the missing results depend. -/
structure Sufficient (f : Function) (d : Dependencies) (t : Tuples) : Prop where
  input : t.input.Fits f.inputs
  output : t.output.Fits f.outputs
  filled : ∀ k list, t.output.isFilled k = .ok false → f.dependenciesOf d k = .ok list →
    ∀ i ∈ list, t.input.isFilled i = .ok true

end Function

namespace FunctionGraph

variable {g : FunctionGraph} {a b : List (Option Value)}

theorem argumentValue_congr (hlen : a.length = b.length) {k : Nat} (h : a[k]? = b[k]?) :
    g.argumentValue a k = g.argumentValue b k := by
  have hat : elementAt a.toArray k = elementAt b.toArray k := by
    simp only [elementAt, List.getElem?_toArray, List.size_toArray, h, hlen]
  rw [argumentValue, argumentValue, hat]

/-- Arguments agree on those that a source depends on. -/
def AgreeFor (g : FunctionGraph) (source : ValueSource) (a b : List (Option Value)) : Prop :=
  a.length = b.length ∧ ∀ i, g.DependsOn source i → a[i]? = b[i]?

theorem lt_of_inputSource {n : DataNode} {entry : NodeEntry} (hn : g.graph.nodes[n.index]? = some entry) {j : Nat}
    {source : ValueSource} (h : g.inputSource n j = .ok source) : j < entry.inputCount := by
  rw [inputSource, bind_eq_ok_iff] at h
  obtain ⟨s, hs, -⟩ := h
  obtain ⟨entry', hn', hlt, -⟩ := Wiring.inputSocket_eq_ok_iff.mp hs
  rw [hn] at hn'
  cases hn'
  exact hlt

section

variable (acyclic : WellFounded g.graph.Feeds)

theorem sourceValue_congr {source : ValueSource} (h : g.AgreeFor source a b)
    (hnode : ∀ o origin, source = .node o → g.graph.outputs[o.index]? = some origin →
      g.nodeOutputs acyclic a origin.node = g.nodeOutputs acyclic b origin.node) :
    g.sourceValue acyclic a source = g.sourceValue acyclic b source := by
  cases source with
  | argument k => exact argumentValue_congr h.1 (h.2 k (.argument k))
  | node o =>
      rw [sourceValue, sourceValue, outputValue, outputValue]
      cases ho : g.graph.output o with
      | error fault => rw [error_bind, error_bind]
      | ok origin => rw [ok_bind, ok_bind, hnode o origin rfl (Wiring.output_eq_ok_iff.mp ho)]

/-- The outputs of a node are the same on arguments that agree on those of one of its outputs. -/
theorem nodeOutputs_congr (hg : g.graph.Frozen) (hs : g.Standard) (n : DataNode) :
    ∀ o origin, g.graph.outputs[o.index]? = some origin → origin.node = n → g.argument? (.output o) = none →
      g.AgreeFor (.node o) a b → g.nodeOutputs acyclic a n = g.nodeOutputs acyclic b n := by
  -- the inputs of the node depend on no more arguments than this one of its outputs, so all of them agree
  induction n using acyclic.induction with
  | _ n ih =>
      rintro o origin ho rfl hnone h
      rcases hs o.index origin ho with hsome | ⟨entry, op, hn, hf⟩
      · rw [hnone] at hsome
        cases hsome
      obtain ⟨entry', hn', hlt, -⟩ := hg.output_place ho
      rw [hn] at hn'
      cases hn'
      rw [NodeEntry.outputCount, hf] at hlt
      have hread : entry.function.reads origin.position = .ok (List.range entry.inputCount) := by
        rw [NodeEntry.inputCount, hf]
        exact op.reads_eq hlt
      have hinput (j : Nat) : g.inputValue acyclic a origin.node j = g.inputValue acyclic b origin.node j := by
        rw [inputValue, inputValue]
        cases hsource : g.inputSource origin.node j with
        | error fault => rw [error_bind, error_bind]
        | ok source =>
            have hj := List.mem_range.mpr (lt_of_inputSource hn hsource)
            have hinner : g.AgreeFor source a b := ⟨h.1, fun i hi => h.2 i (.node ho hn hread hj hsource hi)⟩
            rw [ok_bind, ok_bind]
            refine sourceValue_congr acyclic hinner fun o' origin' heq ho' => ?_
            subst heq
            obtain ⟨s, -, hs'⟩ := bind_eq_ok_iff.mp hsource
            exact ih origin'.node (g.feeds_of_inputSource hsource (Wiring.output_eq_ok_iff.mpr ho')) o' origin' ho'
              rfl (argument?_eq_none_of_source hs') hinner
      rw [nodeOutputs_eq, nodeOutputs_eq, funext hinput]

theorem socketValue_congr (hg : g.graph.Frozen) (hs : g.Standard) {s : DataSocket} {source : ValueSource}
    (hsource : g.source s = .ok source) (h : g.AgreeFor source a b) :
    g.socketValue acyclic a s = g.socketValue acyclic b s := by
  rw [socketValue, socketValue, hsource, ok_bind, ok_bind]
  refine sourceValue_congr acyclic h fun o origin heq ho => ?_
  subst heq
  exact nodeOutputs_congr acyclic hg hs origin.node o origin ho rfl (argument?_eq_none_of_source hsource) h

end

section

variable {acyclic : WellFounded g.graph.Feeds} {f : Function} {t : Tuples} {lists : List (List Nat)}

variable (acyclic) in
theorem exists_socketValue_partial (hg : g.graph.Frozen) (hs : g.Standard) (hsig : g.Signature f) {input : Tuple}
    (hinput : input.Fits f.inputs) {s : DataSocket} (hc : g.graph.contains s) {list : List Nat}
    (hlist : g.Depends s list) (hfilled : ∀ i ∈ list, input.isFilled i = .ok true) :
    ∃ v, g.socketValue acyclic input.contents s = .ok v ∧ g.Suits s v := by
  obtain ⟨source, hsource, hspec⟩ := hlist
  obtain ⟨args, htyped, hargs⟩ := hinput.exists_full
  have hagree : g.AgreeFor source input.contents (args.map some) := by
    refine ⟨?_, fun i hi => ?_⟩
    · rw [Tuple.length_contents, List.length_map, htyped.length_eq, Tuple.size, hinput.size_eq]
    · obtain ⟨v, hv⟩ := Tuple.isFilled_eq_true_iff.mp (hfilled i ((hspec i).mpr hi))
      rw [hv, List.getElem?_map, hargs i v hv, Option.map_some]
  rw [socketValue_congr acyclic hg hs hsource hagree]
  exact exists_socketValue acyclic hg hs (hsig.accepts htyped) hc

/-- All missing results have values if the tuples suffice for it. -/
theorem exists_supplies (hg : g.graph.Frozen) (hs : g.Standard) (hout : ∀ s ∈ g.outputs, g.graph.contains s)
    (hsig : g.Signature f) (hlists : List.Forall₂ g.Depends g.outputs lists)
    (ht : f.Sufficient (.ofLists lists) t) : ∃ vs, Typed vs f.outputs ∧
      List.Forall₂ (fun r v => g.Supplies acyclic t.input.contents r.1 r.2 v)
        (g.outputs.zip t.output.slots.toList) vs := by
  have hsupply : ∀ r ∈ g.outputs.zip t.output.slots.toList, ∃ v, g.Supplies acyclic t.input.contents r.1 r.2 v := by
    rintro ⟨s, slot⟩ hr
    obtain ⟨k, hk⟩ := List.mem_iff_getElem?.mp hr
    rw [List.getElem?_zip_eq_some, Array.getElem?_toList] at hk
    obtain ⟨hsocket, hslot⟩ := hk
    cases hc : slot.content with
    | some v =>
        exact ⟨v, ht.output.typed slot (Array.mem_toList_iff.mpr (Array.mem_of_getElem? hslot)) v hc, .inl hc⟩
    | none =>
        obtain ⟨list, hlist, hdepends⟩ := (forall₂_iff_getElem?.mp hlists).2 hsocket
        have hempty : t.output.isFilled k = .ok false :=
          Tuple.isFilled_eq_ok_iff.mpr ⟨none, Tuple.value?_eq_ok_iff.mpr ⟨slot, hslot, hc⟩, rfl⟩
        have hfilled := ht.filled k _ hempty (Function.dependenciesOf_ofLists_eq_ok_iff.mpr ⟨list, hlist, rfl⟩)
        obtain ⟨v, hv, p, hp, htype⟩ := exists_socketValue_partial acyclic hg hs hsig ht.input
          (hout s (List.mem_of_getElem? hsocket)) hdepends fun i hi => hfilled i (mem_increasing_iff.mpr hi)
        obtain ⟨p', hp', hparameter⟩ := (forall₂_iff_getElem?.mp hsig.outputs).2 hsocket
        rw [hp, Except.ok.injEq] at hparameter
        subst hparameter
        rw [Array.getElem?_toList, ht.output.getElem?_layout hslot, Option.some.injEq] at hp'
        subst hp'
        exact ⟨v, htype, .inr ⟨hc, hv⟩⟩
  obtain ⟨vs, hvs⟩ := exists_forall₂ hsupply
  refine ⟨vs, ?_, hvs⟩
  have hlen : t.output.slots.toList.length = g.outputs.length := by
    rw [Array.length_toList, ht.output.size_eq, hsig.outputs.length_eq, Array.length_toList]
  have htyped : List.Forall₂ (fun v p => v.type = p.type) vs
      (((g.outputs.zip t.output.slots.toList).map Prod.snd).map Slot.parameter) := by
    rw [List.map_map, List.forall₂_map_right_iff]
    exact (hvs.imp fun _ _ hv => hv.1).flip
  rwa [List.map_snd_zip (Nat.le_of_eq hlen), ← Array.toList_map, ← Tuple.layout, ht.output.layout] at htyped

theorem Supplies.cases {vs : List Value} (hsig : g.Signature f) (hfits : t.output.Fits f.outputs)
    (hvs : List.Forall₂ (fun r v => g.Supplies acyclic t.input.contents r.1 r.2 v)
      (g.outputs.zip t.output.slots.toList) vs) (k : Nat) :
    (∀ v, t.output.value? k = .ok (some v) → vs[k]? = some v) ∧
      (t.output.value? k = .ok none → ∃ s v, g.outputs[k]? = some s ∧
        g.socketValue acyclic t.input.contents s = .ok v ∧ vs[k]? = some v) := by
  have hslot {content : Option Value} (h : t.output.value? k = .ok content) : ∃ s slot v, g.outputs[k]? = some s ∧
      slot.content = content ∧ vs[k]? = some v ∧ g.Supplies acyclic t.input.contents s slot v := by
    obtain ⟨slot, hs, hc⟩ := Tuple.value?_eq_ok_iff.mp h
    have hp := hfits.getElem?_layout hs
    rw [← Array.getElem?_toList] at hp
    obtain ⟨s, hsocket, -⟩ := (forall₂_iff_getElem?.mp hsig.outputs.flip).2 hp
    have hzip : (g.outputs.zip t.output.slots.toList)[k]? = some (s, slot) := by
      rw [List.getElem?_zip_eq_some, Array.getElem?_toList]
      exact ⟨hsocket, hs⟩
    obtain ⟨v, hv, hsupplies⟩ := (forall₂_iff_getElem?.mp hvs).2 hzip
    exact ⟨s, slot, v, hsocket, hc, hv, hsupplies⟩
  constructor
  · intro v h
    obtain ⟨s, slot, v', -, hc, hv, -, hkept | ⟨hempty, -⟩⟩ := hslot h
    · rw [hc, Option.some.injEq] at hkept
      rw [hv, hkept]
    · rw [hc] at hempty
      cases hempty
  · intro h
    obtain ⟨s, slot, v, hs, hc, hv, -, hkept | ⟨-, hvalue⟩⟩ := hslot h
    · rw [hc] at hkept
      cases hkept
    · exact ⟨s, v, hs, hvalue, hv⟩

/-- A result that is missing in two calls is the same if they agree on the arguments it depends on. -/
theorem Supplies.getElem?_eq (hg : g.graph.Frozen) (hs : g.Standard) (hsig : g.Signature f)
    (hlists : List.Forall₂ g.Depends g.outputs lists) {t' : Tuples} (ht : f.Sufficient (.ofLists lists) t)
    (ht' : f.Sufficient (.ofLists lists) t') {xs ys : List Value}
    (hxs : List.Forall₂ (fun r v => g.Supplies acyclic t.input.contents r.1 r.2 v)
      (g.outputs.zip t.output.slots.toList) xs)
    (hys : List.Forall₂ (fun r v => g.Supplies acyclic t'.input.contents r.1 r.2 v)
      (g.outputs.zip t'.output.slots.toList) ys) {k : Nat} {list : List Nat}
    (hk : t.output.value? k = .ok none) (hk' : t'.output.value? k = .ok none)
    (hlist : f.dependenciesOf (.ofLists lists) k = .ok list)
    (hagree : ∀ i ∈ list, t.input.value? i = t'.input.value? i) : xs[k]? = ys[k]? := by
  obtain ⟨s, x, hsocket, hx, hxk⟩ := (Supplies.cases hsig ht.output hxs k).2 hk
  obtain ⟨s', y, hsocket', hy, hyk⟩ := (Supplies.cases hsig ht'.output hys k).2 hk'
  rw [hsocket, Option.some.injEq] at hsocket'
  subst hsocket'
  obtain ⟨found, hfound, rfl⟩ := Function.dependenciesOf_ofLists_eq_ok_iff.mp hlist
  obtain ⟨found', hfound', source, hsource, hspec⟩ := (forall₂_iff_getElem?.mp hlists).2 hsocket
  rw [hfound, Option.some.injEq] at hfound'
  subst hfound'
  have hag : g.AgreeFor source t.input.contents t'.input.contents := by
    refine ⟨?_, fun i hi => Tuple.getElem?_contents_eq (hagree i (mem_increasing_iff.mpr ((hspec i).mpr hi)))⟩
    rw [Tuple.length_contents, Tuple.length_contents, Tuple.size, Tuple.size, ht.input.size_eq, ht'.input.size_eq]
  rw [socketValue_congr acyclic hg hs hsource hag, hy, Except.ok.injEq] at hx
  rw [hxk, hyk, hx]

end

end FunctionGraph

end Nodeflow
