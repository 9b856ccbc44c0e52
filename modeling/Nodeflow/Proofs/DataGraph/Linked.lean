import Nodeflow.Proofs.DataGraph.Frozen
import Nodeflow.Proofs.DataGraph.Growing

/-!
# Links at both of their ends

A link is kept twice, as the origin of its input and among the targets of its output, and a socket is
kept twice too, in the numbers of its node and with its own place there. Whatever steps a graph is
built by, refused links among them, the two agree, and finishing the graph keeps that.
-/

namespace Nodeflow

inductive BuildStep where
  | insert (function : Function) (source : Option SourceInfo)
  | link (source : OutputSocket) (target : InputSocket)

namespace Wiring

variable {ω : Type}

/-- An input takes its value from an output; `link` tells the link that an origin stands for. -/
def OriginIs (link : ω → Option OutputSocket) (g : Wiring ω) (i : InputSocket) (o : OutputSocket) : Prop :=
  ∃ e, g.inputs[i.index]? = some e ∧ link e.origin = some o

/-- What is kept twice agrees. -/
structure Consistent (link : ω → Option OutputSocket) (g : Wiring ω) : Prop where
  inputs_tiled : g.nodes.toList.flatMap NodeEntry.inputSockets = (List.range g.inputs.size).map .mk
  outputs_tiled : g.nodes.toList.flatMap NodeEntry.outputSockets = (List.range g.outputs.size).map .mk
  input_place : ∀ {n k s}, g.inputSocket n k = .ok s ↔ g.place (.input s) = .ok (n, k)
  output_place : ∀ {n k s}, g.outputSocket n k = .ok s ↔ g.place (.output s) = .ok (n, k)
  placed : ∀ {s}, g.contains s → ∃ n k, g.place s = .ok (n, k)
  target_once : ∀ {i o}, OriginIs link g i o → ∃ out, g.output o = .ok out ∧ out.targets.count i = 1
  target_only : ∀ {i o out}, g.output o = .ok out → ¬OriginIs link g i o → out.targets.count i = 0
  typed : ∀ {i o}, OriginIs link g i o → ∃ t, g.outputType o = .ok t ∧ g.inputType i = .ok t

variable {link : ω → Option OutputSocket} {g : Wiring ω}

namespace Numbered

theorem inputSocket_eq_ok_iff (h : Numbered g) {n : DataNode} {k : Nat} {s : InputSocket} :
    g.inputSocket n k = .ok s ↔ g.place (.input s) = .ok (n, k) := by
  rw [Wiring.inputSocket_eq_ok_iff, place_input_eq_ok_iff]
  constructor
  · rintro ⟨entry, hn, hk, rfl⟩
    exact h.input_at hn hk
  · rintro ⟨origin, hs⟩
    obtain ⟨entry, hn, hk, hidx⟩ := h.input_place hs
    exact ⟨entry, hn, hk, congrArg InputSocket.mk hidx⟩

theorem outputSocket_eq_ok_iff (h : Numbered g) {n : DataNode} {k : Nat} {s : OutputSocket} :
    g.outputSocket n k = .ok s ↔ g.place (.output s) = .ok (n, k) := by
  rw [Wiring.outputSocket_eq_ok_iff, place_output_eq_ok_iff]
  constructor
  · rintro ⟨entry, hn, hk, rfl⟩
    exact h.output_at hn hk
  · rintro ⟨targets, hs⟩
    obtain ⟨entry, hn, hk, hidx⟩ := h.output_place hs
    exact ⟨entry, hn, hk, congrArg OutputSocket.mk hidx⟩

theorem exists_inputType (h : Numbered g) {s : InputSocket} (hs : g.contains (.input s)) :
    ∃ t, g.inputType s = .ok t := by
  have he := Array.getElem?_eq_getElem (of_decide_eq_true hs)
  obtain ⟨entry, hn, hk, -⟩ := h.input_place he
  exact ⟨_, inputType_eq_ok_iff.mpr ⟨_, entry, _, he, hn, Array.getElem?_eq_getElem hk, rfl⟩⟩

theorem exists_outputType (h : Numbered g) {s : OutputSocket} (hs : g.contains (.output s)) :
    ∃ t, g.outputType s = .ok t := by
  have he := Array.getElem?_eq_getElem (of_decide_eq_true hs)
  obtain ⟨entry, hn, hk, -⟩ := h.output_place he
  exact ⟨_, outputType_eq_ok_iff.mpr ⟨_, entry, _, he, hn, Array.getElem?_eq_getElem hk, rfl⟩⟩

end Numbered

theorem exists_place {s : DataSocket} (hs : g.contains s) : ∃ n k, g.place s = .ok (n, k) := by
  cases s with
  | input s =>
      have he := Array.getElem?_eq_getElem (of_decide_eq_true hs)
      exact ⟨_, _, place_input_eq_ok_iff.mpr ⟨_, he⟩⟩
  | output s =>
      have he := Array.getElem?_eq_getElem (of_decide_eq_true hs)
      exact ⟨_, _, place_output_eq_ok_iff.mpr ⟨_, he⟩⟩

end Wiring

namespace DataGraphBuilder

variable {b b' : DataGraphBuilder} {i : InputSocket} {o : OutputSocket}

/-! ## The sockets of the nodes -/

/-- The sockets of the nodes, in order, are all sockets. -/
structure Tiled (b : DataGraphBuilder) : Prop where
  inputs : b.nodes.toList.flatMap NodeEntry.inputSockets = (List.range b.inputs.size).map .mk
  outputs : b.nodes.toList.flatMap NodeEntry.outputSockets = (List.range b.outputs.size).map .mk

theorem range_add_map {α : Type} (mk : Nat → α) (m n : Nat) :
    (List.range (m + n)).map mk = (List.range m).map mk ++ (List.range' m n).map mk := by
  rw [List.range_add, List.map_append, List.range'_eq_map_range]

theorem Tiled.insert (h : Tiled b) (f : Function) (source : Option SourceInfo) :
    Tiled (b.insert f source).2 where
  inputs := by
    simp [DataGraphBuilder.insert, h.inputs, range_add_map, NodeEntry.inputSockets, NodeEntry.inputCount]
  outputs := by
    simp [DataGraphBuilder.insert, h.outputs, range_add_map, NodeEntry.outputSockets, NodeEntry.outputCount]

theorem Tiled.record (h : Tiled b) (o : OutputSocket) (i : InputSocket) : Tiled (b.record o i) where
  inputs := by simpa [DataGraphBuilder.record] using h.inputs
  outputs := by simpa [DataGraphBuilder.record] using h.outputs

/-! ## The two ends of links -/

/-- An input is once among the targets of its origin, and among no others. -/
structure Paired (b : DataGraphBuilder) : Prop where
  once : ∀ {i o}, Wiring.OriginIs id b i o → ∃ out, b.output o = .ok out ∧ out.targets.count i = 1
  only : ∀ {i o out}, b.output o = .ok out → ¬Wiring.OriginIs id b i o → out.targets.count i = 0

theorem originIs_insert_iff (f : Function) (source : Option SourceInfo) :
    Wiring.OriginIs id (b.insert f source).2 i o ↔ Wiring.OriginIs id b i o := by
  constructor
  · rintro ⟨e, he, ho⟩
    rcases input_insert_cases f source he with he | ⟨k, -, -, rfl⟩
    · exact ⟨e, he, ho⟩
    · cases ho
  · rintro ⟨e, he, ho⟩
    obtain ⟨origin, he', hkeep⟩ := (extends_insert f source b).inputs he
    have hsome : e.origin.isSome := by rw [show e.origin = some o from ho]; rfl
    exact ⟨_, he', (hkeep hsome).trans ho⟩

theorem Paired.insert (h : Paired b) (f : Function) (source : Option SourceInfo) :
    Paired (b.insert f source).2 := by
  have hkept {o : OutputSocket} {out : OutputEntry} (ho : b.output o = .ok out) :
      (b.insert f source).2.output o = .ok out := by
    rw [Wiring.output_eq_ok_iff] at ho ⊢
    have hlt := (Array.getElem?_eq_some_iff.mp ho).1
    refine Eq.trans ?_ ho
    simp only [DataGraphBuilder.insert, getElem?_append_rangeMap, hlt, if_true]
  refine ⟨fun {i o} hi => ?_, fun {i o out} ho hi => ?_⟩
  · obtain ⟨out, ho, hcount⟩ := h.once ((originIs_insert_iff f source).mp hi)
    exact ⟨out, hkept ho, hcount⟩
  · rw [originIs_insert_iff] at hi
    rw [Wiring.output_eq_ok_iff] at ho
    rcases output_insert_cases f source ho with ho | ⟨k, -, -, rfl⟩
    · exact h.only (Wiring.output_eq_ok_iff.mpr ho) hi
    · rfl

theorem originIs_record_iff {e : InputEntry (Option OutputSocket)} (he : b.inputs[i.index]? = some e)
    {i' : InputSocket} {o' : OutputSocket} : Wiring.OriginIs id (b.record o i) i' o' ↔
      if i' = i then o' = o else Wiring.OriginIs id b i' o' := by
  by_cases hi : i' = i
  · subst hi
    rw [if_pos rfl]
    simp only [Wiring.OriginIs, record, Array.getElem?_modify, he]
    simp [eq_comm]
  · have hne : i.index ≠ i'.index := fun h => hi (by cases i; cases i'; cases h; rfl)
    rw [if_neg hi]
    simp only [Wiring.OriginIs, record, Array.getElem?_modify, if_neg hne]

theorem output_record (b : DataGraphBuilder) (o o' : OutputSocket) (i : InputSocket) :
    (b.record o i).output o' = (b.output o').map fun out =>
      if o' = o then { out with targets := out.targets ++ [i] } else out := by
  simp only [Wiring.output, elementAt, DataGraphBuilder.record, Array.getElem?_modify, Array.size_modify]
  by_cases hoo : o' = o
  · subst hoo
    cases b.outputs[o'.index]? <;> simp [Except.map]
  · have hne : o.index ≠ o'.index := fun h => hoo (by cases o; cases o'; cases h; rfl)
    cases b.outputs[o'.index]? <;> simp [Except.map, hne, hoo]

theorem Paired.record (h : Paired b) {e : InputEntry (Option OutputSocket)}
    (he : b.inputs[i.index]? = some e) (hnone : e.origin = none) {out : OutputEntry}
    (ho : b.output o = .ok out) : Paired (b.record o i) := by
  have hno (o' : OutputSocket) : ¬Wiring.OriginIs id b i o' := by
    rintro ⟨e', he', ho'⟩
    rw [he] at he'
    cases he'
    rw [hnone] at ho'
    cases ho'
  refine ⟨fun {i' o'} hi => ?_, fun {i' o' out'} ho' hi => ?_⟩
  · rw [originIs_record_iff he] at hi
    by_cases hii : i' = i
    · subst hii
      obtain rfl : o' = o := by simpa using hi
      refine ⟨_, (output_record b o' o' i').trans (by rw [ho]; rfl), ?_⟩
      simp [h.only ho (hno o')]
    · rw [if_neg hii] at hi
      obtain ⟨out', ho', hcount⟩ := h.once hi
      refine ⟨_, (output_record b o o' i).trans (by rw [ho']; rfl), ?_⟩
      split
      · simpa [List.count_append, List.count_singleton, Ne.symm hii] using hcount
      · exact hcount
  · rw [originIs_record_iff he] at hi
    rw [output_record] at ho'
    obtain ⟨old, hold, rfl⟩ := map_eq_ok_iff.mp ho'
    by_cases hii : i' = i
    · subst hii
      have hoo : o' ≠ o := by simpa using hi
      rw [if_neg hoo]
      exact h.only hold (hno o')
    · rw [if_neg hii] at hi
      have hcount := h.only hold hi
      split
      · simpa [List.count_append, List.count_singleton, Ne.symm hii] using hcount
      · exact hcount

theorem Reachable.tiled_paired (h : Reachable b) : Tiled b ∧ Paired b := by
  induction h with
  | empty =>
      refine ⟨⟨rfl, rfl⟩, fun {i o} hi => ?_, fun {i o out} ho _ => ?_⟩
      · obtain ⟨e, he, -⟩ := hi
        simp at he
      · rw [Wiring.output_eq_ok_iff] at ho
        simp at ho
  | insert _ f source ih => exact ⟨ih.1.insert f source, ih.2.insert f source⟩
  | link _ o i hl ih =>
      obtain ⟨⟨e, he, hnone⟩, ⟨t, hout, -⟩, rfl⟩ := link_eq_ok_iff.mp hl
      obtain ⟨out, -, -, ho, -⟩ := Wiring.outputType_eq_ok_iff.mp hout
      exact ⟨ih.1.record o i, ih.2.record he hnone (Wiring.output_eq_ok_iff.mpr ho)⟩

theorem Reachable.consistent (h : Reachable b) : Wiring.Consistent id b where
  inputs_tiled := h.tiled_paired.1.inputs
  outputs_tiled := h.tiled_paired.1.outputs
  input_place := h.wellTyped.inputSocket_eq_ok_iff
  output_place := h.wellTyped.outputSocket_eq_ok_iff
  placed := Wiring.exists_place
  target_once := h.tiled_paired.2.once
  target_only := h.tiled_paired.2.only
  typed hi := by
    obtain ⟨e, he, ho⟩ := hi
    exact h.wellTyped.typed he ho

/-! ## Finishing -/

theorem originIs_finished_iff {inputs : Array (InputEntry OutputSocket)} (ho : b.origins = .ok inputs) :
    Wiring.OriginIs some (b.finished inputs) i o ↔ Wiring.OriginIs id b i o := by
  constructor
  · rintro ⟨e, he, horigin⟩
    exact ⟨_, origin_of_finished ho he, horigin⟩
  · rintro ⟨e, he, horigin⟩
    obtain ⟨origin, hsome, he'⟩ := (origins_eq_ok_iff.mp ho).2 he
    exact ⟨_, he', hsome.symm.trans horigin⟩

/-- A finished graph is consistent, and every input is a target of exactly one output. -/
theorem Reachable.consistent_finished (h : Reachable b) {g : DataGraph} (hb : b.build = .ok (.ok g)) :
    Wiring.Consistent some g ∧ ∀ i, g.contains (.input i) →
      ∃! o, ∃ out, g.output o = .ok out ∧ i ∈ out.targets := by
  obtain ⟨ho, hnodes, houtputs, -⟩ := build_eq_ok_iff.mp hb
  obtain ⟨nodes, inputs, outputs⟩ := g
  cases hnodes
  cases houtputs
  have hnum : Wiring.Numbered (b.finished inputs) := h.wellTyped.numbered_finished ho
  have hcons := h.consistent
  have hfinished : Wiring.Consistent some (b.finished inputs) := {
    inputs_tiled := (origins_eq_ok_iff.mp ho).1 ▸ hcons.inputs_tiled
    outputs_tiled := hcons.outputs_tiled
    input_place := hnum.inputSocket_eq_ok_iff
    output_place := hnum.outputSocket_eq_ok_iff
    placed := Wiring.exists_place
    target_once := fun hi => hcons.target_once ((originIs_finished_iff ho).mp hi)
    target_only := fun hout hi => hcons.target_only hout (mt (originIs_finished_iff ho).mpr hi)
    typed := fun {i o} hi => by
      obtain ⟨e, he, horigin⟩ := hi
      cases horigin
      exact h.wellTyped.typed_finished ho he }
  refine ⟨hfinished, fun i hi => ?_⟩
  obtain ⟨e, he⟩ : ∃ e, (b.finished inputs).inputs[i.index]? = some e :=
    ⟨_, Array.getElem?_eq_getElem (of_decide_eq_true hi)⟩
  obtain ⟨out, hout, hcount⟩ := hfinished.target_once ⟨e, he, rfl⟩
  refine ⟨_, ⟨out, hout, List.count_pos_iff.mp (by omega)⟩, ?_⟩
  rintro o' ⟨out', hout', hmem⟩
  by_contra hne
  have hcount' := hfinished.target_only (i := i) hout' fun ⟨e', he', horigin⟩ => hne <| by
    rw [he] at he'
    cases he'
    exact (Option.some.inj horigin).symm
  exact absurd (List.count_pos_iff.mpr hmem) (by omega)

/-! ## Steps -/

/-- Carries out a step. A link may be refused, and then the graph stays as it is. -/
def perform (b : DataGraphBuilder) :
    BuildStep → Except Fault (Option DataGraphError × DataGraphBuilder)
  | .insert f source => .ok (none, (b.insert f source).2)
  | .link o i => (b.link o i).map fun
      | .ok b' => (none, b')
      | .error refusal => (some refusal, b)

def performAll : DataGraphBuilder → List BuildStep →
    Except Fault (List (Option DataGraphError) × DataGraphBuilder)
  | b, [] => .ok ([], b)
  | b, step :: steps => do
    let (answer, b) ← b.perform step
    let (answers, b) ← b.performAll steps
    return (answer :: answers, b)

def Names (b : DataGraphBuilder) : BuildStep → Prop
  | .insert .. => True
  | .link o i => b.contains (.output o) ∧ b.contains (.input i)

/-- Each step names sockets that exist when it is carried out. -/
def NamesAll : DataGraphBuilder → List BuildStep → Prop
  | _, [] => True
  | b, step :: steps => b.Names step ∧
      ∀ answer b', b.perform step = .ok (answer, b') → b'.NamesAll steps

def accepted (steps : List BuildStep) (answers : List (Option DataGraphError)) : List BuildStep :=
  ((steps.zip answers).filter fun x => x.2.isNone).map Prod.fst

/-- A refused link names its reason: the input is taken, or the types differ. -/
def Refuses (b : DataGraphBuilder) (o : OutputSocket) (i : InputSocket) : DataGraphError → Prop
  | .alreadyLinked i' => i' = i ∧ ∃ o', Wiring.OriginIs id b i o'
  | .typeMismatch s t => (¬∃ o', Wiring.OriginIs id b i o') ∧ s ≠ t ∧
      b.outputType o = .ok s ∧ b.inputType i = .ok t
  | _ => False

/-- A step is carried out, or refused for a reason and without a change. -/
theorem Reachable.perform_cases (h : Reachable b) {step : BuildStep} (hs : b.Names step) :
    (∃ b', b.perform step = .ok (none, b') ∧ Reachable b') ∨
      ∃ refusal, b.perform step = .ok (some refusal, b) ∧
        ∃ o i, step = .link o i ∧ Refuses b o i refusal := by
  cases step with
  | insert f source => exact .inl ⟨_, rfl, h.insert f source⟩
  | link o i =>
      obtain ⟨ho, hi⟩ := hs
      obtain ⟨e, he⟩ : ∃ e, b.inputs[i.index]? = some e :=
        ⟨_, Array.getElem?_eq_getElem (of_decide_eq_true hi)⟩
      obtain ⟨s, hs⟩ := h.wellTyped.exists_outputType ho
      obtain ⟨t, ht⟩ := h.wellTyped.exists_inputType hi
      have hlink := link_eq he hs ht
      cases horigin : e.origin with
      | some o' =>
          rw [horigin] at hlink
          refine .inr ⟨.alreadyLinked i, ?_, o, i, rfl, rfl, o', _, he, horigin⟩
          rw [perform, hlink]
          rfl
      | none =>
          rw [horigin] at hlink
          have hno : ¬∃ o', Wiring.OriginIs id b i o' := by
            rintro ⟨o', e', he', ho'⟩
            rw [he] at he'
            cases he'
            rw [horigin] at ho'
            cases ho'
          by_cases hst : s = t
          · subst hst
            rw [if_neg (by simp), if_neg (by simp)] at hlink
            refine .inl ⟨_, ?_, h.link o i hlink⟩
            rw [perform, hlink]
            rfl
          · rw [if_neg (by simp), if_pos hst] at hlink
            refine .inr ⟨.typeMismatch s t, ?_, o, i, rfl, hno, hst, hs, ht⟩
            rw [perform, hlink]
            rfl

theorem performAll_cons {step : BuildStep} {steps : List BuildStep} {b₁ : DataGraphBuilder}
    {answer : Option DataGraphError} {answers : List (Option DataGraphError)}
    (hstep : b.perform step = .ok (answer, b₁)) (hall : b₁.performAll steps = .ok (answers, b')) :
    b.performAll (step :: steps) = .ok (answer :: answers, b') := by
  rw [performAll, hstep, ok_bind]
  change (b₁.performAll steps >>= _) = _
  rw [hall]
  rfl

theorem Reachable.exists_performAll (h : Reachable b) {steps : List BuildStep} (hs : b.NamesAll steps) :
    ∃ answers b', b.performAll steps = .ok (answers, b') ∧ Reachable b' ∧
      b.performAll (accepted steps answers) = .ok ((accepted steps answers).map fun _ => none, b') := by
  induction steps generalizing b with
  | nil => exact ⟨[], b, rfl, h, rfl⟩
  | cons step steps ih =>
      obtain ⟨hname, hrest⟩ := hs
      rcases h.perform_cases hname with ⟨b₁, hstep, h₁⟩ | ⟨refusal, hstep, -⟩
      · obtain ⟨answers, b', hall, h', haccepted⟩ := ih h₁ (hrest _ _ hstep)
        exact ⟨none :: answers, b', performAll_cons hstep hall, h', performAll_cons hstep haccepted⟩
      · obtain ⟨answers, b', hall, h', haccepted⟩ := ih h (hrest _ _ hstep)
        exact ⟨some refusal :: answers, b', performAll_cons hstep hall, h', haccepted⟩

/--
Whatever steps are taken on sockets that exist, both ends of every link agree, in the graph under
construction and in a finished one. A step is refused only for its reason, and then changes nothing,
so the refused steps could have been left out.
-/
theorem steps_keep_both_ends (steps : List BuildStep) (hs : NamesAll {} steps) :
    ∃ answers b, performAll {} steps = .ok (answers, b) ∧ Wiring.Consistent id b ∧
      performAll {} (accepted steps answers) = .ok ((accepted steps answers).map fun _ => none, b) ∧
      (∀ step refusal b', b.Names step → b.perform step = .ok (some refusal, b') → b' = b ∧
        ∃ o i, step = .link o i ∧ Refuses b o i refusal) ∧
      ∀ g, b.build = .ok (.ok g) → Wiring.Consistent some g ∧ ∀ i, g.contains (.input i) →
        ∃! o, ∃ out, g.output o = .ok out ∧ i ∈ out.targets := by
  obtain ⟨answers, b, hall, hb, haccepted⟩ := Reachable.empty.exists_performAll hs
  refine ⟨answers, b, hall, hb.consistent, haccepted, fun step refusal b' hname hstep => ?_,
    fun g hg => hb.consistent_finished hg⟩
  rcases hb.perform_cases hname with ⟨b₁, hdone, -⟩ | ⟨refusal', hrefused, hreason⟩
  · rw [hstep] at hdone
    cases hdone
  · rw [hstep] at hrefused
    cases hrefused
    exact ⟨rfl, hreason⟩

/-- A link that is made, made again, and tried at an input of another type. -/
def linkedTwice : List BuildStep :=
  [.insert (Builtin.functionInput [⟨"x", .float⟩]) none,
    .insert (Builtin.functionOutput [⟨"y", .float⟩, ⟨"n", .int⟩]) none,
    .link ⟨0⟩ ⟨0⟩, .link ⟨0⟩ ⟨0⟩, .link ⟨0⟩ ⟨1⟩]

theorem steps_keep_both_ends_linkedTwice : NamesAll {} linkedTwice ∧ ∃ b,
    performAll {} linkedTwice = .ok ([none, none, none, some (.alreadyLinked ⟨0⟩),
      some (.typeMismatch .float .int)], b) ∧ Wiring.Consistent id b := by
  have hnames : NamesAll {} linkedTwice := by
    refine ⟨trivial, ?_⟩
    rintro _ _ ⟨⟩
    refine ⟨trivial, ?_⟩
    rintro _ _ ⟨⟩
    with_unfolding_all
      refine ⟨⟨rfl, rfl⟩, ?_⟩
      rintro _ _ ⟨⟩
      refine ⟨⟨rfl, rfl⟩, ?_⟩
      rintro _ _ ⟨⟩
      refine ⟨⟨rfl, rfl⟩, ?_⟩
      exact fun _ _ _ => trivial
  obtain ⟨answers, b, hall, hconsistent, -⟩ := steps_keep_both_ends linkedTwice hnames
  have hanswers : (performAll {} linkedTwice).map Prod.fst = .ok [none, none, none,
      some (.alreadyLinked ⟨0⟩), some (.typeMismatch .float .int)] := by
    with_unfolding_all rfl
  rw [hall] at hanswers
  cases hanswers
  exact ⟨hnames, b, hall, hconsistent⟩

end DataGraphBuilder

end Nodeflow
