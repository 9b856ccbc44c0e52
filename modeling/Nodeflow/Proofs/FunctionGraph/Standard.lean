import Nodeflow.Proofs.Builtin.Calls
import Nodeflow.Proofs.FunctionGraph.Needed
import Nodeflow.Proofs.FunctionGraph.Recursion

/-!
# Graphs of operations

In a graph whose outputs are arguments or come from operations every socket has a value of its type,
provided that the arguments have theirs.
-/

namespace Nodeflow

namespace FunctionGraph

variable {g : FunctionGraph}

/-- An output of the graph is an argument, or belongs to a node with an operation. -/
def Standard (g : FunctionGraph) : Prop :=
  ∀ (o : Nat) (origin : OutputEntry), g.graph.outputs[o]? = some origin →
    (g.argument? (.output ⟨o⟩)).isSome ∨ ∃ entry op, g.graph.nodes[origin.node.index]? = some entry ∧
      entry.function = Operation.function op

def Suits (g : FunctionGraph) (s : DataSocket) (v : Value) : Prop :=
  ∃ p, g.graph.parameter s = .ok p ∧ v.type = p.type

def Accepts (g : FunctionGraph) (args : List Value) : Prop := List.Forall₂ g.Suits g.inputs args

theorem suits_input_iff {s : InputSocket} {v : Value} :
    g.Suits (.input s) v ↔ g.graph.inputType s = .ok v.type := by
  simp only [Suits, Wiring.inputType, map_eq_ok_iff]
  exact exists_congr fun p => and_congr_right fun _ => eq_comm

theorem suits_output_iff {o : OutputSocket} {v : Value} :
    g.Suits (.output o) v ↔ g.graph.outputType o = .ok v.type := by
  simp only [Suits, Wiring.outputType, map_eq_ok_iff]
  exact exists_congr fun p => and_congr_right fun _ => eq_comm

/-- The socket that a source stands for: an argument's socket, or an output. -/
inductive Stands (g : FunctionGraph) : ValueSource → DataSocket → Prop
  | argument {k : Nat} {s : DataSocket} (hs : g.inputs[k]? = some s) : Stands g (.argument k) s
  | node {o : OutputSocket} (ho : g.argument? (.output o) = none) : Stands g (.node o) (.output o)

theorem getElem?_argument? {s : DataSocket} {k : Nat} (h : g.argument? s = some k) :
    g.inputs[k]? = some s := by
  obtain ⟨hlt, hs, -⟩ := List.idxOf?_eq_some_iff.mp h
  rw [List.getElem?_eq_getElem hlt, hs]

theorem argument?_eq_some_iff {s : DataSocket} {k : Nat} (hnodup : g.inputs.Nodup) :
    g.argument? s = some k ↔ g.inputs[k]? = some s := by
  rw [argument?, List.idxOf?_eq_some_iff]
  constructor
  · rintro ⟨hlt, hs, -⟩
    rw [List.getElem?_eq_getElem hlt, hs]
  · intro hk
    obtain ⟨hlt, hs⟩ := List.getElem?_eq_some_iff.mp hk
    refine ⟨hlt, hs, fun j hj hjs => ?_⟩
    exact List.nodup_iff_getElem?_ne_getElem?.mp hnodup j k hj hlt (by
      rw [hk, List.getElem?_eq_getElem (Nat.lt_trans hj hlt), hjs])

theorem stands_output {o : OutputSocket} {source : ValueSource} (h : g.source (.output o) = .ok source) :
    g.Stands source (.output o) := by
  unfold FunctionGraph.source at h
  split at h
  · rename_i k hk
    cases h
    exact .argument (getElem?_argument? hk)
  · rename_i hnone
    cases h
    exact .node hnone

/-- The source of an input stands for the input or for its origin. -/
theorem stands_input {s : InputSocket} {e : InputEntry OutputSocket}
    (he : g.graph.inputs[s.index]? = some e) {source : ValueSource}
    (h : g.source (.input s) = .ok source) :
    g.Stands source (.input s) ∨ g.Stands source (.output e.origin) := by
  rw [g.source_input_eq he, Except.ok.injEq] at h
  cases hs : g.argument? (.input s) with
  | some k =>
      rw [hs] at h
      exact .inl (h ▸ .argument (getElem?_argument? hs))
  | none =>
      rw [hs, Option.orElse_none] at h
      cases ho : g.argument? (.output e.origin) with
      | some k =>
          rw [ho] at h
          exact .inr (h ▸ .argument (getElem?_argument? ho))
      | none =>
          rw [ho] at h
          exact .inr (h ▸ .node ho)

theorem argument?_eq_none_of_source {s : DataSocket} {o : OutputSocket} (h : g.source s = .ok (.node o)) :
    g.argument? (.output o) = none := by
  cases s with
  | output o' =>
      cases stands_output h with
      | node hnone => exact hnone
  | input i =>
      obtain ⟨e, he, -⟩ := g.source_input_eq_node h
      rcases stands_input he h with h | h
      · cases h
      · cases h with
        | node hnone => exact hnone

/-- A node is asked only for outputs that are no arguments. -/
theorem TakesFrom.exists_output {s : DataSocket} {n : DataNode} (h : g.TakesFrom s n) :
    ∃ o origin, g.graph.outputs[o.index]? = some origin ∧ origin.node = n ∧ g.argument? (.output o) = none := by
  obtain ⟨o, origin, hsource, ho, hn⟩ := h
  exact ⟨o, origin, ho, hn, argument?_eq_none_of_source hsource⟩

theorem Needed.exists_takesFrom {n : DataNode} (h : g.Needed n) : ∃ s, g.TakesFrom s n := by
  cases h with
  | result _ hn => exact ⟨_, hn⟩
  | input _ _ _ hn => exact ⟨_, hn⟩

theorem suits_input_of_origin (hg : g.graph.Frozen) {s : InputSocket} {e : InputEntry OutputSocket}
    (he : g.graph.inputs[s.index]? = some e) {v : Value} (hv : g.Suits (.output e.origin) v) :
    g.Suits (.input s) v := by
  rw [suits_output_iff] at hv
  obtain ⟨t, hout, hin⟩ := hg.typed he
  rw [hv] at hout
  cases hout
  exact suits_input_iff.mpr hin

theorem typed_of_suits (hg : Wiring.Numbered g.graph) {n : DataNode} {entry : NodeEntry}
    (hn : g.graph.nodes[n.index]? = some entry) {xs : List Value}
    (h : List.Forall₂ (fun s v => g.Suits (.input s) v) entry.inputSockets xs) :
    Typed xs entry.function.inputs := by
  refine (forall₂_iff_getElem?.mpr ⟨?_, fun {i p} hp => ?_⟩ :
    List.Forall₂ (fun p v => v.type = p.type) entry.function.inputs.toList xs).flip
  · rw [← h.length_eq, NodeEntry.length_inputSockets, Array.length_toList, NodeEntry.inputCount]
  · rw [Array.getElem?_toList] at hp
    have hlt : i < entry.inputCount := (Array.getElem?_eq_some_iff.mp hp).1
    obtain ⟨v, hv, hsuits⟩ := (forall₂_iff_getElem?.mp h).2 (NodeEntry.inputSockets_getElem? hlt)
    refine ⟨v, hv, ?_⟩
    obtain ⟨origin, he⟩ := hg.input_at hn hlt
    obtain ⟨e, entry', p', he', hn', hp', htype⟩ :=
      Wiring.inputType_eq_ok_iff.mp (suits_input_iff.mp hsuits)
    rw [he] at he'
    cases he'
    rw [hn] at hn'
    cases hn'
    rw [hp] at hp'
    cases hp'
    exact htype.symm

variable {args : List Value}

theorem argumentValue_eq_ok {k : Nat} {v : Value} (h : args[k]? = some v) :
    g.argumentValue (args.map some) k = .ok v := by
  have hat : elementAt (args.map some).toArray k = .ok (some v) := by
    rw [elementAt_eq_ok_iff]
    simp [h]
  rw [argumentValue, hat]
  rfl

section

variable (acyclic : WellFounded g.graph.Feeds)

theorem exists_sourceValue (ha : g.Accepts args) {source : ValueSource} {s : DataSocket}
    (h : g.Stands source s) (hnode : ∀ o, source = .node o →
      ∃ v, g.outputValue acyclic (args.map some) o = .ok v ∧ g.Suits (.output o) v) :
    ∃ v, g.sourceValue acyclic (args.map some) source = .ok v ∧ g.Suits s v := by
  cases h with
  | argument hs =>
      obtain ⟨v, hv, hsuits⟩ := (forall₂_iff_getElem?.mp ha).2 hs
      exact ⟨v, argumentValue_eq_ok hv, hsuits⟩
  | node ho => exact hnode _ rfl

theorem exists_inputValue (hg : g.graph.Frozen) (ha : g.Accepts args) {s : InputSocket}
    {e : InputEntry OutputSocket} (he : g.graph.inputs[s.index]? = some e)
    (hnode : g.argument? (.output e.origin) = none →
      ∃ v, g.outputValue acyclic (args.map some) e.origin = .ok v ∧ g.Suits (.output e.origin) v) :
    ∃ v, g.socketValue acyclic (args.map some) (.input s) = .ok v ∧ g.Suits (.input s) v := by
  have hsource := g.source_input_eq he
  rw [socketValue, hsource, ok_bind]
  rcases stands_input he hsource with h | h
  · refine exists_sourceValue acyclic ha h fun o ho => ?_
    rw [ho] at h
    cases h
  · obtain ⟨v, hv, hsuits⟩ := exists_sourceValue acyclic ha h fun o ho => by
      rw [ho] at h
      cases h with
      | node hnone => exact hnode hnone
    exact ⟨v, hv, suits_input_of_origin hg he hsuits⟩

theorem socketValue_input_of_source {s : InputSocket} {v : Value} {n : DataNode} {entry : NodeEntry} {i : Nat}
    (hn : g.graph.nodes[n.index]? = some entry) (hi : entry.inputSockets[i]? = some s)
    (h : g.socketValue acyclic (args.map some) (.input s) = .ok v) :
    g.inputValue acyclic (args.map some) n i = .ok v := by
  have hlt : i < entry.inputCount := by
    simpa using (List.getElem?_eq_some_iff.mp hi).1
  rw [NodeEntry.inputSockets_getElem? hlt] at hi
  cases hi
  rw [inputValue, inputSource, Wiring.inputSocket_eq_ok_iff.mpr ⟨entry, hn, hlt, rfl⟩, ok_bind]
  exact h

/-- A node gives the results of its operation on the values of its inputs. -/
structure Performs (args : List Value) (n : DataNode) (entry : NodeEntry) (op : Operation)
    (xs ys : List Value) : Prop where
  inputs : List.Forall₂ (fun s v => g.socketValue acyclic (args.map some) (.input s) = .ok v)
    entry.inputSockets xs
  apply : op.apply xs = some ys
  outputs : g.nodeOutputs acyclic (args.map some) n = .ok ys
  typed : Typed ys op.function.outputs

variable {acyclic} in
theorem Performs.outputValue {n : DataNode} {entry : NodeEntry} {op : Operation} {xs ys : List Value}
    (h : g.Performs acyclic args n entry op xs ys) (hg : g.graph.Frozen) (hf : entry.function = op.function)
    (hn : g.graph.nodes[n.index]? = some entry) {o : OutputSocket} {origin : OutputEntry}
    (ho : g.graph.outputs[o.index]? = some origin) (hnode : origin.node = n) :
    ∃ v, g.outputValue acyclic (args.map some) o = .ok v ∧ ys[origin.position]? = some v ∧
      g.Suits (.output o) v := by
  subst hnode
  obtain ⟨entry', hn', hlt, -⟩ := hg.output_place ho
  rw [hn] at hn'
  cases hn'
  rw [NodeEntry.outputCount, hf] at hlt
  have hp := Array.getElem?_eq_getElem hlt
  obtain ⟨v, hv, htype⟩ := (forall₂_iff_getElem?.mp h.typed.flip).2 (by rwa [Array.getElem?_toList])
  refine ⟨v, ?_, hv, ?_⟩
  · rw [FunctionGraph.outputValue, Wiring.output_eq_ok_iff.mpr ho, ok_bind, h.outputs, ok_bind,
      elementAt_eq_ok_iff]
    simpa using hv
  · rw [suits_output_iff, Wiring.outputType_eq_ok_iff]
    exact ⟨origin, entry, _, ho, hn, by rw [hf]; exact hp, htype.symm⟩

theorem exists_performs (hg : g.graph.Frozen) (hs : g.Standard) (ha : g.Accepts args) (n : DataNode) :
    ∀ entry op, g.graph.nodes[n.index]? = some entry → entry.function = Operation.function op →
      ∃ xs ys, g.Performs acyclic args n entry op xs ys := by
  -- an input that is no argument comes from a node that feeds this one, which performs its own operation
  induction n using acyclic.induction with
  | _ n ih =>
      intro entry op hn hf
      have hinput : ∀ s ∈ entry.inputSockets, ∃ v,
          g.socketValue acyclic (args.map some) (.input s) = .ok v ∧ g.Suits (.input s) v := by
        intro s hs'
        simp only [NodeEntry.inputSockets, List.mem_map, List.mem_range'_1] at hs'
        obtain ⟨i, ⟨hge, hlt⟩, rfl⟩ := hs'
        obtain ⟨k, rfl⟩ : ∃ k, i = entry.firstInput + k := ⟨_, (Nat.add_sub_cancel' hge).symm⟩
        obtain ⟨origin, he⟩ := hg.input_at hn (k := k) (by omega)
        refine exists_inputValue acyclic hg ha he fun hnone => ?_
        obtain ⟨t, ht, -⟩ := hg.typed he
        obtain ⟨place, -, -, ho, -⟩ := Wiring.outputType_eq_ok_iff.mp ht
        rcases hs origin.index place ho with hsome | ⟨entry', op', hm, hf'⟩
        · rw [hnone] at hsome
          cases hsome
        · obtain ⟨xs, ys, hperf⟩ := ih place.node ⟨entry, k, _, place, hn, by omega, he, ho, rfl⟩ entry' op' hm hf'
          obtain ⟨v, hv, -, hsuits⟩ := hperf.outputValue hg hf' hm ho rfl
          exact ⟨v, hv, hsuits⟩
      obtain ⟨xs, hxs⟩ := exists_forall₂ hinput
      have htyped : Typed xs op.function.inputs :=
        hf ▸ typed_of_suits hg.toNumbered hn (hxs.imp fun s v hv => hv.2)
      obtain ⟨ys, happly, hys⟩ := Operation.exists_apply htyped
      refine ⟨xs, ys, hxs.imp fun s v hv => hv.1, happly, ?_, hys⟩
      rw [nodeOutputs_eq, Wiring.node_eq_ok_iff.mpr hn, ok_bind]
      refine Operation.evaluate_eq_ok hf happly fun i v hi => ?_
      obtain ⟨s, hsi, hv, -⟩ := (forall₂_iff_getElem?.mp hxs.flip).2 hi
      exact socketValue_input_of_source acyclic hn hsi hv

theorem exists_outputValue (hg : g.graph.Frozen) (hs : g.Standard) (ha : g.Accepts args) {o : OutputSocket}
    {origin : OutputEntry} (ho : g.graph.outputs[o.index]? = some origin)
    (hnone : g.argument? (.output o) = none) :
    ∃ v, g.outputValue acyclic (args.map some) o = .ok v ∧ g.Suits (.output o) v := by
  rcases hs o.index origin ho with hsome | ⟨entry, op, hn, hf⟩
  · rw [hnone] at hsome
    cases hsome
  · obtain ⟨xs, ys, hperf⟩ := exists_performs acyclic hg hs ha origin.node entry op hn hf
    obtain ⟨v, hv, -, hsuits⟩ := hperf.outputValue hg hf hn ho rfl
    exact ⟨v, hv, hsuits⟩

theorem exists_socketValue (hg : g.graph.Frozen) (hs : g.Standard) (ha : g.Accepts args) {s : DataSocket}
    (hc : g.graph.contains s) :
    ∃ v, g.socketValue acyclic (args.map some) s = .ok v ∧ g.Suits s v := by
  cases s with
  | input s =>
      simp only [Wiring.contains, decide_eq_true_eq] at hc
      have he := Array.getElem?_eq_getElem hc
      obtain ⟨t, ht, -⟩ := hg.typed he
      obtain ⟨place, -, -, ho, -⟩ := Wiring.outputType_eq_ok_iff.mp ht
      exact exists_inputValue acyclic hg ha he fun hnone => exists_outputValue acyclic hg hs ha ho hnone
  | output o =>
      simp only [Wiring.contains, decide_eq_true_eq] at hc
      have ho := Array.getElem?_eq_getElem hc
      obtain ⟨source, hsource⟩ : ∃ source, g.source (.output o) = .ok source := by
        rw [FunctionGraph.source]
        cases g.argument? (.output o) with
        | some k => exact ⟨_, rfl⟩
        | none => exact ⟨_, rfl⟩
      rw [socketValue, hsource, ok_bind]
      refine exists_sourceValue acyclic ha (stands_output hsource) fun o' ho' => ?_
      have hstands := stands_output hsource
      rw [ho'] at hstands
      cases hstands with
      | node hnone => exact exists_outputValue acyclic hg hs ha ho hnone

end

end FunctionGraph

end Nodeflow
