import Nodeflow.Proofs.FunctionGraph.Log

/-!
# What an evaluation runs

The nodes that an evaluation runs are those that are demanded: the sources of the missing results,
and from there on whatever a demanded node has to have. A tuple-call node has to have all of its
inputs; a lazy node those that are always required, and those that an entry asks for and leaves
empty, unless it finishes the call. Each of these nodes is run to its end exactly once, after all the
nodes that it takes values from.

The demand for a lazy node's inputs depends on what the node does, so it is told from the log.
-/

namespace Nodeflow

open Eval Evaluation

namespace FunctionGraph

/-- The node that an input of a node takes its value from, if it takes it from a node. -/
def inputNode? (g : FunctionGraph) (n : DataNode) (i : Nat) : Except Fault (Option DataNode) := do
  g.sourceNode? (.input (← g.graph.inputSocket n i))

/-- What has to be computed for missing results. Requests count in some entries only. -/
inductive Demanded (g : FunctionGraph) (counts : LazyEntry → Prop) (output : Tuple)
    (runs : List NodeRun) : DataNode → Prop
  | result {s o n} (hs : (s, o) ∈ g.outputs.zipIdx) (hempty : output.isFilled o = .ok false)
      (hn : g.sourceNode? s = .ok (some n)) : Demanded g counts output runs n
  | input {n m entry body i} (h : Demanded g counts output runs n) (hn : g.graph.node n = .ok entry)
      (ht : entry.function.tupleCall? = some body) (hi : i < entry.inputCount)
      (hm : g.inputNode? n i = .ok (some m)) : Demanded g counts output runs m
  | required {n m entry body i} (h : Demanded g counts output runs n) (hn : g.graph.node n = .ok entry)
      (ht : entry.function.tupleCall? = none) (hb : entry.function.lazyTupleCall? = some body)
      (hi : i ∈ body.alwaysRequired) (hm : g.inputNode? n i = .ok (some m)) : Demanded g counts output runs m
  | requested {n m given x i} (h : Demanded g counts output runs n)
      (hrun : ⟨n, given, .entry x⟩ ∈ runs) (hx : counts x) (hi : i ∈ x.after.requested)
      (hempty : x.left.input.isFilled i = .ok false) (hm : g.inputNode? n i = .ok (some m)) :
      Demanded g counts output runs m

/-- A node has been run to its end. -/
def FinishedIn (runs : List NodeRun) (n : DataNode) : Prop := ∃ r ∈ runs, r.node = n ∧ r.Finishes

/-- The runs are those of the demanded nodes, each run to its end once and in order. -/
structure DrivenByDemand (g : FunctionGraph) (counts : LazyEntry → Prop) (output : Tuple)
    (runs : List NodeRun) : Prop where
  demanded_iff : ∀ n, (∃ r ∈ runs, r.node = n) ↔ g.Demanded counts output runs n
  called_once : ∀ n entry body, g.Demanded counts output runs n → g.graph.node n = .ok entry →
    entry.function.tupleCall? = some body →
      ∃ given tuples results, runsOf runs n = [⟨n, given, .call tuples results⟩]
  one_call : ∀ n entry body, g.Demanded counts output runs n → g.graph.node n = .ok entry →
    entry.function.tupleCall? = none → entry.function.lazyTupleCall? = some body →
      ∃ entries count closed, Enters (runsOf runs n) entries ∧ Protocol body entries count closed
  in_order : ∀ before r rest, runs = before ++ r :: rest →
    ∀ r' ∈ before ++ [r], r'.node = r.node → ∀ i ∈ r'.given, ∀ m,
      g.inputNode? r.node i = .ok (some m) → FinishedIn before m

variable {g : FunctionGraph} {e e' : Evaluation} {n m : DataNode} {c c' : Context} {r : NodeRun}
  {runs runs' : List NodeRun} {counts : LazyEntry → Prop} {output : Tuple} {i : Nat}

theorem Demanded.mono (h : g.Demanded counts output runs n) (hruns : ∀ r ∈ runs, r ∈ runs') :
    g.Demanded counts output runs' n := by
  induction h with
  | result hs hempty hn => exact .result hs hempty hn
  | input _ hn ht hi hm ih => exact .input ih hn ht hi hm
  | required _ hn ht hb hi hm ih => exact .required ih hn ht hb hi hm
  | requested _ hrun hx hi hempty hm ih => exact .requested ih (hruns _ hrun) hx hi hempty hm

/-! ## The nodes that inputs wait for -/

theorem inputNode?_eq (n : DataNode) (i : Nat) : g.inputNode? n i = g.inputSource n i >>= fun
    | .argument _ => .ok none
    | .node o => (g.graph.output o).map fun origin => some origin.node := by
  rw [inputNode?, inputSource, bind_assoc]
  rfl

theorem inputNode?_of_pendingNode? (h : g.pendingNode? e n i = .ok (some m)) :
    g.inputNode? n i = .ok (some m) := by
  obtain ⟨o, origin, hs, ho, rfl⟩ := pendingNode?_eq_some h
  rw [inputNode?_eq, hs, ok_bind]
  exact map_eq_ok_iff.mpr ⟨origin, Wiring.output_eq_ok_iff.mpr ho, rfl⟩

/-- The node that an input takes its value from is finished, if there is one. -/
def Ready (g : FunctionGraph) (e : Evaluation) (n : DataNode) (i : Nat) : Prop :=
  ∀ m, g.inputNode? n i = .ok (some m) → e.isFinished m = true

theorem Ready.run (h : g.Ready e n i) {r : NodeRun} (hrun : g.Runs e m c r e' c') : g.Ready e' n i :=
  fun _ hk => hrun.isFinished (h _ hk)

theorem Logged.ready (h : Logged g e runs) (hp : g.pendingNode? e n i = .ok none) : g.Ready e n i := by
  intro m hm
  rw [inputNode?_eq, bind_eq_ok_iff] at hm
  obtain ⟨source, hs, hm⟩ := hm
  rw [pendingNode?_eq, hs, ok_bind] at hp
  cases source with
  | argument k => cases hm
  | node o =>
      obtain ⟨origin, ho, heq⟩ := map_eq_ok_iff.mp hm
      obtain rfl := Option.some.inj heq
      dsimp only at hp
      split at hp
      · rename_i hcomputed
        obtain ⟨origin', ho', hf⟩ := h.computed o hcomputed
        obtain rfl := Option.some.inj ((Wiring.output_eq_ok_iff.mp ho).symm.trans ho')
        exact hf
      · rw [ho] at hp
        cases hp

theorem Runs.neededInputs_eq (hrun : g.Runs e n c r e' c') {entry : NodeEntry}
    (hn : g.graph.nodes[n.index]? = some entry) : neededInputs e n entry = .ok r.given := by
  have hlazy {body : LazyBody} (ht : entry.function.tupleCall? = none)
      (hb : entry.function.lazyTupleCall? = some body) :
      neededInputs e n entry = .ok (e.callOf n entry body).needed := by
    rw [neededInputs, ht, hb, callOf]
    cases e.suspendedCall? n <;> rfl
  cases hrun with
  | call hn' ht =>
      obtain rfl := Option.some.inj (hn.symm.trans (Wiring.node_eq_ok_iff.mp hn'))
      rw [neededInputs, ht]
  | last hn' ht hb =>
      obtain rfl := Option.some.inj (hn.symm.trans (Wiring.node_eq_ok_iff.mp hn'))
      exact hlazy ht hb
  | next hn' ht hb =>
      obtain rfl := Option.some.inj (hn.symm.trans (Wiring.node_eq_ok_iff.mp hn'))
      exact hlazy ht hb

theorem Logged.ready_given (h : Logged g e runs) (hpending : g.pendingNodes e n = .ok [])
    (hrun : g.Runs e n c r e' c') : ∀ i ∈ r.given, g.Ready e n i := by
  obtain ⟨entry, needed, hn, hneeded, hto, -⟩ := pendingNodes_eq_ok hpending
  obtain rfl := Except.ok.inj (hneeded.symm.trans (hrun.neededInputs_eq hn))
  exact fun i hi => h.ready (by simpa using hto i hi)

theorem mem_of_enters {own : List NodeRun} {entries : List LazyEntry} {x : LazyEntry}
    (hown : runsOf runs n = own) (h : Enters own entries) (hlast : entries.getLast? = some x) :
    ∃ given, ⟨n, given, .entry x⟩ ∈ runs := by
  have hx : NodeAction.entry x ∈ own.map NodeRun.action := by
    rw [h]
    exact List.mem_map_of_mem (List.mem_of_getLast? hlast)
  obtain ⟨⟨m, given, action⟩, hr, haction⟩ := List.mem_map.mp hx
  rw [← hown] at hr
  obtain ⟨hmem, hnode⟩ := List.mem_filter.mp hr
  obtain rfl : m = n := of_decide_eq_true hnode
  obtain rfl : action = .entry x := haction
  exact ⟨given, hmem⟩

theorem Logged.finishedIn (h : Logged g e runs) (hf : e.isFinished n = true) : FinishedIn runs n := by
  have hstanding := h.standing n
  generalize hown : runsOf runs n = own at hstanding
  cases hstanding with
  | untouched hf' => simp [hf'] at hf
  | suspended _ _ _ _ _ _ _ _ hf' => simp [hf'] at hf
  | @called _ _ given tuples results =>
      have hmem : ⟨n, given, .call tuples results⟩ ∈ runsOf runs n := by simp [hown]
      exact ⟨_, (List.mem_filter.mp hmem).1, rfl, trivial⟩
  | completed _ _ _ hruns _ hlast hdone =>
      obtain ⟨given, hmem⟩ := mem_of_enters hown hruns hlast
      exact ⟨_, hmem, rfl, hdone⟩

theorem Logged.suspendedCall?_of_isFinished (h : Logged g e runs) (hf : e.isFinished n = true) :
    e.suspendedCall? n = none := by
  have hstanding := h.standing n
  generalize runsOf runs n = own at hstanding
  cases hstanding with
  | untouched _ hs => exact hs
  | called _ _ _ hs => exact hs
  | suspended _ _ _ _ _ _ _ _ hf' => simp [hf'] at hf
  | completed _ _ _ _ _ _ _ _ _ hs => exact hs

/-! ## What a run of a node entails -/

/-- What the node of a run has to have is computed, or the node is suspended until it is. -/
structure Fed (g : FunctionGraph) (e : Evaluation) (r : NodeRun) : Prop where
  inputs : ∀ entry body, g.graph.node r.node = .ok entry → entry.function.tupleCall? = some body →
    ∀ i < entry.inputCount, g.Ready e r.node i
  required : ∀ entry body, g.graph.node r.node = .ok entry → entry.function.tupleCall? = none →
    entry.function.lazyTupleCall? = some body → ∀ i ∈ body.alwaysRequired, g.Ready e r.node i
  requested : ∀ x, r.action = .entry x → x.after.done = false → ∀ i ∈ x.after.requested,
    x.left.input.isFilled i = .ok false →
      g.Ready e r.node i ∨ ∃ call, e.suspendedCall? r.node = some call ∧ i ∈ call.needed

theorem Logged.given_eq_needed (h : Logged g e runs) (hrun : g.Runs e n c r e' c')
    {call : SuspendedCall} (hcall : e.suspendedCall? n = some call) : r.given = call.needed := by
  have hstanding := h.standing n
  generalize runsOf runs n = own at hstanding
  cases hstanding with
  | untouched _ hs => simp [hcall] at hs
  | called _ _ _ hs => simp [hcall] at hs
  | completed _ _ _ _ _ _ _ _ _ hs => simp [hcall] at hs
  | suspended hn ht hb =>
      have hneeded := hrun.neededInputs_eq (Wiring.node_eq_ok_iff.mp hn)
      rw [neededInputs, ht, hb, hcall] at hneeded
      exact (Except.ok.inj hneeded).symm

/-- Another run, or the next one of the node itself, leaves a run fed. -/
theorem Fed.run {r' : NodeRun} (hr : Fed g e r') (h : Logged g e runs) (hfin : n.index < e.finished.size)
    (hready : ∀ i ∈ r.given, g.Ready e n i) (hrun : g.Runs e n c r e' c') : Fed g e' r' := by
  refine ⟨fun entry body hn ht i hi => (hr.inputs entry body hn ht i hi).run hrun,
    fun entry body hn ht hb i hi => (hr.required entry body hn ht hb i hi).run hrun,
    fun x hx hdone i hi hempty => ?_⟩
  rcases hr.requested x hx hdone i hi hempty with hi' | ⟨call, hcall, hneeded⟩
  · exact .inl (hi'.run hrun)
  · by_cases hm : r'.node = n
    · rw [hm] at hcall ⊢
      exact .inl ((hready i (h.given_eq_needed hrun hcall ▸ hneeded)).run hrun)
    · rw [← (hrun.sameAt hfin hm).2] at hcall
      exact .inr ⟨call, hcall, hneeded⟩

theorem Logged.ready_required (h : Logged g e runs) (hfed : ∀ r ∈ runs, Fed g e r)
    (hf : e.isFinished n = false) (hready : ∀ i ∈ r.given, g.Ready e n i)
    (hrun : g.Runs e n c r e' c') {entry : NodeEntry} {body : LazyBody}
    (hn : g.graph.node n = .ok entry) (ht : entry.function.tupleCall? = none)
    (hb : entry.function.lazyTupleCall? = some body) : ∀ i ∈ body.alwaysRequired, g.Ready e n i := by
  have hstanding := h.standing n
  generalize hown : runsOf runs n = own at hstanding
  cases hstanding with
  | called _ _ hf' => simp [hf'] at hf
  | completed _ _ _ _ _ _ _ _ hf' => simp [hf'] at hf
  | untouched _ hs =>
      have hneeded := hrun.neededInputs_eq (Wiring.node_eq_ok_iff.mp hn)
      rw [neededInputs, ht, hb, hs] at hneeded
      rw [Except.ok.inj hneeded]
      exact hready
  | suspended _ _ _ hruns _ hlast =>
      obtain ⟨given, hmem⟩ := mem_of_enters hown hruns hlast
      exact (hfed _ hmem).required entry body hn ht hb

/-- A run is fed by what was given to it and to the earlier runs of its node. -/
theorem Logged.fed (h : Logged g e runs) (hfed : ∀ r ∈ runs, Fed g e r) (hsus : n.index < e.suspended.size)
    (hf : e.isFinished n = false) (hready : ∀ i ∈ r.given, g.Ready e n i)
    (hrun : g.Runs e n c r e' c') : Fed g e' r := by
  have hrequired {entry : NodeEntry} {body : LazyBody} (hn : g.graph.node n = .ok entry)
      (ht : entry.function.tupleCall? = none) (hb : entry.function.lazyTupleCall? = some body) :
      ∀ i ∈ body.alwaysRequired, g.Ready e' n i := fun i hi =>
    (h.ready_required hfed hf hready hrun hn ht hb i hi).run hrun
  have hrun' := hrun
  cases hrun with
  | call hn ht =>
      refine ⟨fun entry body hn' _ i hi => ?_, fun entry body hn' ht' => ?_, fun x hx => by cases hx⟩
      · obtain rfl := Except.ok.inj (hn.symm.trans hn')
        exact (hready i (List.mem_range.mpr hi)).run hrun'
      · obtain rfl := Except.ok.inj (hn.symm.trans hn')
        simp [ht] at ht'
  | last hn ht _ _ _ _ _ _ hdone =>
      refine ⟨fun entry body hn' ht' => ?_, fun entry body => hrequired, fun x hx hdone' => ?_⟩
      · obtain rfl := Except.ok.inj (hn.symm.trans hn')
        simp [ht] at ht'
      · cases hx
        simp [hdone] at hdone'
  | next hn ht _ _ _ _ _ _ _ _ hneeded =>
      refine ⟨fun entry body hn' ht' => ?_, fun entry body => hrequired, fun x hx _ i hi hempty => .inr ?_⟩
      · obtain rfl := Except.ok.inj (hn.symm.trans hn')
        simp [ht] at ht'
      · cases hx
        refine ⟨_, suspendedCall?_suspend_self hsus _, ?_⟩
        refine (Function.isFilled_or_mem_stillEmpty hneeded hi).resolve_left fun hfilled => ?_
        rw [hempty] at hfilled
        cases hfilled

/-! ## The invariant -/

/-- What holds in every configuration that the machine comes to. -/
structure Driven (g : FunctionGraph) (output : Tuple) (k : Configuration) : Prop where
  logged : Logged g k.evaluation k.runs
  positions : (k.todo.map Prod.snd).Nodup
  todo : ∀ p ∈ k.todo, p ∈ g.outputs.zipIdx ∧ k.output.isFilled p.2 = output.isFilled p.2
  results : ∀ p ∈ g.outputs.zipIdx, output.isFilled p.2 = .ok false → p ∈ k.todo ∨
    ∀ n, g.sourceNode? p.1 = .ok (some n) → k.evaluation.isFinished n = true
  stacked : ∀ n ∈ k.stack, g.Demanded (·.after.done = false) output k.runs n
  ran : ∀ r ∈ k.runs, g.Demanded (·.after.done = false) output k.runs r.node
  suspended : ∀ n call, k.evaluation.suspendedCall? n = some call → n ∈ k.stack
  fed : ∀ r ∈ k.runs, Fed g k.evaluation r
  ordered : ∀ before r rest, k.runs = before ++ r :: rest → ∀ i ∈ r.given, ∀ m,
    g.inputNode? r.node i = .ok (some m) → FinishedIn before m

namespace Driven

variable {k k' : Configuration}

theorem initial (g : FunctionGraph) (tuples : Tuples) (c : Context) :
    Driven g tuples.output (g.initial tuples c) where
  logged := .start g _
  positions := by
    rw [FunctionGraph.initial, List.zipIdx_map_snd]
    exact List.nodup_range'
  todo p hp := ⟨hp, rfl⟩
  results p hp _ := .inl hp
  stacked n hn := by cases hn
  ran r hr := by cases hr
  suspended n call hcall := by simp [FunctionGraph.initial] at hcall
  fed r hr := by cases hr
  ordered before r rest h := by simp [FunctionGraph.initial] at h

theorem demanded_pending (h : Driven g output k) {pending : List DataNode} (hn : n ∈ k.stack)
    (hf : k.evaluation.isFinished n = false) (hpending : g.pendingNodes k.evaluation n = .ok pending) :
    ∀ m ∈ pending, g.Demanded (·.after.done = false) output k.runs m := by
  obtain ⟨entry, needed, hentry, hneeded, -, hfrom⟩ := pendingNodes_eq_ok hpending
  intro m hm
  obtain ⟨i, hi, hsome⟩ := hfrom m hm
  have hnode := inputNode?_of_pendingNode? hsome
  have hentry' := Wiring.node_eq_ok_iff.mpr hentry
  have hstack := h.stacked n hn
  cases ht : entry.function.tupleCall? with
  | some body =>
      rw [neededInputs, ht] at hneeded
      cases hneeded
      exact .input hstack hentry' ht (List.mem_range.mp hi) hnode
  | none =>
      cases hb : entry.function.lazyTupleCall? with
      | none => simp [neededInputs, ht, hb] at hneeded
      | some body =>
          have hstanding := h.logged.standing n
          generalize hown : runsOf k.runs n = own at hstanding
          cases hstanding with
          | called _ _ hf' => simp [hf'] at hf
          | completed _ _ _ _ _ _ _ _ hf' => simp [hf'] at hf
          | untouched _ hs =>
              rw [neededInputs, ht, hb, hs] at hneeded
              cases hneeded
              exact .required hstack hentry' ht hb hi hnode
          | @suspended _ _ _ entries x _ _ _ _ hruns _ hlast hdone hempty _ hs =>
              rw [neededInputs, ht, hb, hs] at hneeded
              cases hneeded
              obtain ⟨given, hrun⟩ := mem_of_enters hown hruns hlast
              exact .requested hstack hrun hdone (Function.mem_of_mem_stillEmpty hempty hi)
                (Function.isFilled_of_mem_stillEmpty hempty hi) hnode

/-- A run is demanded, fed, and given outputs of finished nodes. -/
theorem run {todo : List (DataSocket × Nat)} {output' : Tuple} {stack : List DataNode}
    (h : Driven g output ⟨todo, output', n :: stack, e, c, runs⟩) (hg : Wiring.Numbered g.graph)
    (hf : e.isFinished n = false) (hpending : g.pendingNodes e n = .ok [])
    (hrun : g.Runs e n c r e' c') : Driven g output ⟨todo, output', n :: stack, e', c', runs ++ [r]⟩ := by
  have hready := h.logged.ready_given hpending hrun
  have hnode := hrun.node_eq
  obtain ⟨hfin, hsus⟩ := h.logged.lt_size hrun
  have hmono : ∀ r' ∈ runs, r' ∈ runs ++ [r] := fun r' => List.mem_append_left _
  have hdemanded := (h.stacked n (by simp)).mono hmono
  refine ⟨h.logged.run hg hf hrun, h.positions, h.todo, fun p hp hempty => ?_,
    fun m hm => (h.stacked m hm).mono hmono, fun r' hr' => ?_, fun m call hcall => ?_, fun r' hr' => ?_,
    fun before r' rest heq i hi m hm => ?_⟩
  · exact (h.results p hp hempty).imp_right fun hall m hm => hrun.isFinished (hall m hm)
  · rcases List.mem_append.mp hr' with hr' | hr'
    · exact (h.ran r' hr').mono hmono
    · rw [List.mem_singleton.mp hr', hnode]
      exact hdemanded
  · by_cases hm : m = n
    · simp [hm]
    · rw [(hrun.sameAt hfin hm).2] at hcall
      exact h.suspended m call hcall
  · rcases List.mem_append.mp hr' with hr' | hr'
    · exact (h.fed r' hr').run h.logged hfin hready hrun
    · rw [List.mem_singleton.mp hr']
      exact h.logged.fed h.fed hsus hf hready hrun
  · dsimp only at heq
    rcases rest.eq_nil_or_concat' with rfl | ⟨rest, z, rfl⟩
    · obtain ⟨rfl, hlast⟩ := List.append_inj' heq rfl
      cases hlast
      rw [hnode] at hm
      exact h.logged.finishedIn (hready i hi m hm)
    · rw [← List.cons_append, ← List.append_assoc] at heq
      obtain ⟨rfl, -⟩ := List.append_inj' heq rfl
      exact h.ordered before r' rest rfl i hi m hm

theorem keep {s : DataSocket} {o : Nat} {todo : List (DataSocket × Nat)} {output' : Tuple}
    (h : Driven g output ⟨(s, o) :: todo, output', [], e, c, runs⟩) (hfilled : output'.isFilled o = .ok true) :
    Driven g output ⟨todo, output', [], e, c, runs⟩ := by
  have hpositions := h.positions
  have htodo := h.todo
  simp only [List.map_cons, List.nodup_cons, List.forall_mem_cons] at hpositions htodo
  refine ⟨h.logged, hpositions.2, htodo.2, fun p hp hempty => ?_, h.stacked, h.ran, h.suspended, h.fed,
    h.ordered⟩
  refine (h.results p hp hempty).imp_left fun hmem => ?_
  rcases List.mem_cons.mp hmem with rfl | hmem
  · rw [← htodo.1.2, hfilled] at hempty
    cases hempty
  · exact hmem

theorem store {s : DataSocket} {o : Nat} {todo : List (DataSocket × Nat)} {output₁ output₂ : Tuple}
    {v : Value} {old : Option Value} (h : Driven g output ⟨(s, o) :: todo, output₁, [], e, c, runs⟩)
    (hready : ∀ n, g.sourceNode? s = .ok (some n) → e.isFinished n = true)
    (hput : output₁.put o v = .ok (old, output₂)) : Driven g output ⟨todo, output₂, [], e, c, runs⟩ := by
  have hpositions := h.positions
  have htodo := h.todo
  simp only [List.map_cons, List.nodup_cons, List.forall_mem_cons] at hpositions htodo
  refine ⟨h.logged, hpositions.2, fun p hp => ⟨(htodo.2 p hp).1, ?_⟩, fun p hp hempty => ?_, h.stacked, h.ran,
    h.suspended, h.fed, h.ordered⟩
  · rw [← (htodo.2 p hp).2, Tuple.isFilled_put_of_ne hput]
    rintro rfl
    exact hpositions.1 (List.mem_map_of_mem hp)
  · rcases h.results p hp hempty with hmem | hfinished
    · rcases List.mem_cons.mp hmem with rfl | hmem
      · exact .inr hready
      · exact .inl hmem
    · exact .inr hfinished

theorem move (h : Driven g output k) (hg : Wiring.Numbered g.graph) (hmove : g.Move k k') :
    Driven g output k' := by
  cases hmove with
  | run hf hpending hrun => exact h.run hg hf hpending hrun
  | keep hfilled => exact h.keep hfilled
  | store _ hready _ hput => exact h.store hready hput
  | @demand s o _ _ _ _ _ n hempty hsource =>
      obtain ⟨hmem, hsame⟩ := h.todo (s, o) (by simp)
      refine ⟨h.logged, h.positions, h.todo, h.results, fun m hm => ?_, h.ran,
        fun m call hcall => absurd (h.suspended m call hcall) (by simp), h.fed, h.ordered⟩
      rw [List.mem_singleton.mp hm]
      exact .result hmem (hsame ▸ hempty) hsource
  | @drop _ _ n stack _ _ _ hf =>
      refine ⟨h.logged, h.positions, h.todo, h.results,
        fun m hm => h.stacked m (List.mem_cons_of_mem _ hm), h.ran, fun m call hcall => ?_, h.fed, h.ordered⟩
      refine (List.mem_cons.mp (h.suspended m call hcall)).resolve_left ?_
      rintro rfl
      rw [h.logged.suspendedCall?_of_isFinished hf] at hcall
      cases hcall
  | wait hf hpending =>
      refine ⟨h.logged, h.positions, h.todo, h.results, fun m hm => ?_, h.ran,
        fun m call hcall => List.mem_append_right _ (h.suspended m call hcall), h.fed, h.ordered⟩
      rcases List.mem_append.mp hm with hm | hm
      · exact h.demanded_pending (by simp) hf hpending m (List.mem_reverse.mp hm)
      · exact h.stacked m hm

theorem of_reaches (hg : Wiring.Numbered g.graph) {tuples : Tuples} {k : Configuration}
    (h : g.Reaches (g.initial tuples c) k) : Driven g tuples.output k := by
  induction h with
  | refl => exact initial g tuples c
  | tail _ hmove ih => exact ih.move hg hmove

theorem isFinished_of_demanded (h : Driven g output k) (hk : k.Final)
    (hn : g.Demanded (·.after.done = false) output k.runs n) : k.evaluation.isFinished n = true := by
  -- by the way the node is demanded: the logged runs are fed, and the empty stack leaves no call suspended
  induction hn with
  | result hs hempty hn =>
      refine (h.results _ hs hempty).resolve_left ?_ _ hn
      rw [hk.1]
      simp
  | @input n m entry body i _ hn ht hi hm ih =>
      obtain ⟨r, hr, rfl, -⟩ := h.logged.finishedIn ih
      exact (h.fed r hr).inputs entry body hn ht i hi m hm
  | @required n m entry body i _ hn ht hb hi hm ih =>
      obtain ⟨r, hr, rfl, -⟩ := h.logged.finishedIn ih
      exact (h.fed r hr).required entry body hn ht hb i hi m hm
  | @requested n m given x i _ hrun hx hi hempty hm =>
      refine ((h.fed _ hrun).requested x rfl hx i hi hempty).resolve_right ?_ m hm
      rintro ⟨call, hcall, -⟩
      have hstack := h.suspended n call hcall
      rw [hk.2] at hstack
      cases hstack

theorem drivenByDemand (h : Driven g output k) (hk : k.Final) :
    g.DrivenByDemand (·.after.done = false) output k.runs where
  demanded_iff n := by
    constructor
    · rintro ⟨r, hr, rfl⟩
      exact h.ran r hr
    · intro hn
      obtain ⟨r, hr, hnode, -⟩ := h.logged.finishedIn (h.isFinished_of_demanded hk hn)
      exact ⟨r, hr, hnode⟩
  called_once n entry body hn hentry ht := by
    have hf := h.isFinished_of_demanded hk hn
    have hstanding := h.logged.standing n
    generalize runsOf k.runs n = own at hstanding ⊢
    cases hstanding with
    | untouched hf' => simp [hf'] at hf
    | suspended _ _ _ _ _ _ _ _ hf' => simp [hf'] at hf
    | called => exact ⟨_, _, _, rfl⟩
    | completed hentry' ht' =>
        obtain rfl := Except.ok.inj (hentry.symm.trans hentry')
        simp [ht] at ht'
  one_call n entry body hn hentry ht hb := by
    obtain ⟨entries, x, closed, _, _, hruns, -, -, hprotocol⟩ :=
      h.logged.protocol hentry ht hb (h.isFinished_of_demanded hk hn)
    exact ⟨entries, _, closed, hruns, hprotocol⟩
  in_order before r rest heq r' hr' hnode i hi m hm := by
    rcases List.mem_append.mp hr' with hr' | hr'
    · obtain ⟨before₁, rest₁, rfl⟩ := List.append_of_mem hr'
      obtain ⟨r₀, hr₀, hm', hfin⟩ := h.ordered before₁ r' (rest₁ ++ r :: rest) (by simp [heq]) i hi m (hnode ▸ hm)
      exact ⟨r₀, List.mem_append_left _ hr₀, hm', hfin⟩
    · obtain rfl := List.mem_singleton.mp hr'
      exact h.ordered before r' rest heq i hi m hm

end Driven

/--
An evaluation that returns is a run of the machine to its end, and every such run runs exactly the
demanded nodes, each once and to its end, after the nodes that it takes values from. A request counts
unless the entry finishes the call. The entries of a lazy node are one call that keeps the protocol, so
they are counted from one on where the body leaves the count alone.
-/
theorem evaluation_runs_demanded (hg : g.graph.Built) {limit : Fault} {rounds : Nat}
    {tuples tuples' : Tuples}
    (h : runOn c (Function.run (g.evaluateWithin limit rounds) tuples) = (.ok tuples', c')) :
    (∃ k, g.Reaches (g.initial tuples c) k ∧ k.Final ∧ k.output = tuples'.output ∧ k.context = c') ∧
      ∀ k, g.Reaches (g.initial tuples c) k → k.Final →
        g.DrivenByDemand (·.after.done = false) tuples.output k.runs :=
  ⟨exists_reaches h, fun _ hk hfinal => (Driven.of_reaches hg.frozen.toNumbered hk).drivenByDemand hfinal⟩

/-! ## A node that two others wait for -/

def one : Function where
  name := "One"
  inputs := #[]
  outputs := #[⟨"v", .float⟩]
  bodies := [.tupleCall (BodyEval.put 0 (.float .one))]

/-- A node, a switch that chooses between it and another one, and the sum of the node and the switch. -/
def diamondGraph : DataGraph where
  nodes := #[⟨Builtin.functionInput [⟨"c", .bool⟩], none, 0, 0⟩, ⟨one, none, 0, 1⟩, ⟨one, none, 0, 2⟩,
    ⟨Builtin.switchFloat, none, 0, 3⟩, ⟨Builtin.addFloats, none, 3, 4⟩]
  inputs := #[⟨⟨3⟩, 0, ⟨0⟩⟩, ⟨⟨3⟩, 1, ⟨1⟩⟩, ⟨⟨3⟩, 2, ⟨2⟩⟩, ⟨⟨4⟩, 0, ⟨1⟩⟩, ⟨⟨4⟩, 1, ⟨3⟩⟩]
  outputs := #[⟨⟨0⟩, 0, [⟨0⟩]⟩, ⟨⟨1⟩, 0, [⟨1⟩, ⟨3⟩]⟩, ⟨⟨2⟩, 0, [⟨2⟩]⟩, ⟨⟨3⟩, 0, [⟨4⟩]⟩, ⟨⟨4⟩, 0, []⟩]

/-- The condition is an argument. -/
def diamond : FunctionGraph := ⟨diamondGraph, [.output ⟨0⟩], [.output ⟨4⟩]⟩

theorem built_diamondGraph : diamondGraph.Built := by
  have hones := ((DataGraphBuilder.Reachable.empty.insert (Builtin.functionInput [⟨"c", .bool⟩]) none).insert
    one none).insert one none
  have hinserted := (hones.insert Builtin.switchFloat none).insert Builtin.addFloats none
  have hcondition := hinserted.link ⟨0⟩ ⟨0⟩ (by with_unfolding_all rfl)
  have htrue := hcondition.link ⟨1⟩ ⟨1⟩ (by with_unfolding_all rfl)
  have hfalse := htrue.link ⟨2⟩ ⟨2⟩ (by with_unfolding_all rfl)
  have hnode := hfalse.link ⟨1⟩ ⟨3⟩ (by with_unfolding_all rfl)
  have hlinked : DataGraphBuilder.Reachable ⟨diamondGraph.nodes, #[⟨⟨3⟩, 0, some ⟨0⟩⟩, ⟨⟨3⟩, 1, some ⟨1⟩⟩,
      ⟨⟨3⟩, 2, some ⟨2⟩⟩, ⟨⟨4⟩, 0, some ⟨1⟩⟩, ⟨⟨4⟩, 1, some ⟨3⟩⟩], diamondGraph.outputs⟩ :=
    hnode.link ⟨3⟩ ⟨4⟩ (by with_unfolding_all rfl)
  have harrows : diamondGraph.nodes.toList.mapM diamondGraph.feeders = .ok [[], [], [], [0, 1, 2], [1, 3]] := rfl
  exact .of_reachable hlinked harrows (by decide +kernel)

def oneTuples (v : Option Value) : Tuples := ⟨⟨#[]⟩, ⟨#[⟨⟨"v", .float⟩, v⟩]⟩⟩

def sumTuples (a b result : Option Value) : Tuples :=
  ⟨⟨#[⟨⟨"A", .float⟩, a⟩, ⟨⟨"B", .float⟩, b⟩]⟩, ⟨#[⟨⟨"Result", .float⟩, result⟩]⟩⟩

def diamondTuples : Tuples where
  input := ⟨#[⟨⟨"c", .bool⟩, some (.bool true)⟩]⟩
  output := Tuple.new #[⟨"Result", .float⟩]

/-- The switch waits for the branch that it has asked for. -/
def diamondSuspended : Evaluation :=
  (Evaluation.start diamond diamondTuples.input.contents).suspend ⟨3⟩
    ⟨choosing.left, some { choosing.after with requested := [] }, [1]⟩

def diamondChosen : Evaluation :=
  (diamondSuspended.finish ⟨1⟩ [(⟨1⟩, .float .one)]).finish ⟨3⟩ [(⟨3⟩, .float .one)]

def two : Value := .float (BinaryOp.add.apply .one .one)

def diamondRuns : List NodeRun :=
  [⟨⟨3⟩, [0], .entry choosing⟩, ⟨⟨1⟩, [], .call (oneTuples none) (oneTuples (some (.float .one)))⟩,
    ⟨⟨3⟩, [1], .entry passing⟩,
    ⟨⟨4⟩, [0, 1], .call (sumTuples (some (.float .one)) (some (.float .one)) none) (sumTuples none none (some two))⟩]

/-- The end of the evaluation. The node that the sum and the switch share has been run once. -/
def diamondEnd : Configuration where
  todo := []
  output := ⟨#[⟨⟨"Result", .float⟩, some two⟩]⟩
  stack := []
  evaluation := diamondChosen.finish ⟨4⟩ [(⟨4⟩, two)]
  context := {}
  runs := diamondRuns

/-! Four runs lead to the end: the switch asks for its branch, and passes it on after the shared node has been run. -/

theorem runs_diamond_choosing : diamond.Runs (.start diamond diamondTuples.input.contents) ⟨3⟩ {}
    ⟨⟨3⟩, [0], .entry choosing⟩ diamondSuspended {} := by
  have hn : diamond.graph.node ⟨3⟩ = .ok ⟨Builtin.switchFloat, none, 0, 3⟩ := rfl
  have hb : Builtin.switchFloat.lazyTupleCall? = some Builtin.switchBody := rfl
  have hinput : diamond.provideInputs (.start diamond diamondTuples.input.contents) ⟨3⟩ [0]
      (switchTuples none none none none).input = .ok choosing.tuples.input := by
    with_unfolding_all rfl
  with_unfolding_all
    exact .next (x := choosing) hn rfl hb hinput rfl rfl rfl (happens_choosing _) rfl (List.cons_ne_nil 1 []) rfl

theorem runs_diamond_one : diamond.Runs diamondSuspended ⟨1⟩ {}
    ⟨⟨1⟩, [], .call (oneTuples none) (oneTuples (some (.float .one)))⟩
    (diamondSuspended.finish ⟨1⟩ [(⟨1⟩, .float .one)]) {} := by
  have hn : diamond.graph.node ⟨1⟩ = .ok ⟨one, none, 0, 1⟩ := rfl
  have hvalues : NodeEntry.outputValues ⟨one, none, 0, 1⟩ (oneTuples (some (.float .one))).output =
      .ok [.float .one] := rfl
  with_unfolding_all exact .call hn rfl rfl rfl hvalues

theorem runs_diamond_passing : diamond.Runs (diamondSuspended.finish ⟨1⟩ [(⟨1⟩, .float .one)]) ⟨3⟩ {}
    ⟨⟨3⟩, [1], .entry passing⟩ diamondChosen {} := by
  have hn : diamond.graph.node ⟨3⟩ = .ok ⟨Builtin.switchFloat, none, 0, 3⟩ := rfl
  have hb : Builtin.switchFloat.lazyTupleCall? = some Builtin.switchBody := rfl
  have hinput : diamond.provideInputs (diamondSuspended.finish ⟨1⟩ [(⟨1⟩, .float .one)]) ⟨3⟩ [1]
      choosing.left.input = .ok passing.tuples.input := by
    with_unfolding_all rfl
  with_unfolding_all
    exact .last (x := passing) hn rfl hb hinput rfl rfl rfl (happens_passing _) rfl (finishLazy_passing _) rfl

theorem runs_diamond_sum : diamond.Runs diamondChosen ⟨4⟩ {} ⟨⟨4⟩, [0, 1],
    .call (sumTuples (some (.float .one)) (some (.float .one)) none) (sumTuples none none (some two))⟩
    diamondEnd.evaluation {} := by
  have hn : diamond.graph.node ⟨4⟩ = .ok ⟨Builtin.addFloats, none, 3, 4⟩ := rfl
  have hinput : diamond.provideInputs diamondChosen ⟨4⟩ [0, 1] Builtin.addFloats.newTuples.input =
      .ok (sumTuples (some (.float .one)) (some (.float .one)) none).input := by
    with_unfolding_all rfl
  have hvalues : NodeEntry.outputValues ⟨Builtin.addFloats, none, 3, 4⟩ (sumTuples none none (some two)).output =
      .ok [two] := rfl
  with_unfolding_all exact .call hn rfl hinput rfl hvalues

theorem reaches_diamondEnd : diamond.Reaches (diamond.initial diamondTuples {}) diamondEnd := by
  have hdemand : diamond.Move (diamond.initial diamondTuples {})
      ⟨[(.output ⟨4⟩, 0)], diamondTuples.output, [⟨4⟩], .start diamond diamondTuples.input.contents, {}, []⟩ := by
    with_unfolding_all exact .demand rfl rfl rfl
  have hinputs : diamond.pendingNodes (.start diamond diamondTuples.input.contents) ⟨4⟩ = .ok [⟨1⟩, ⟨3⟩] := by
    with_unfolding_all rfl
  have hbranch : diamond.pendingNodes diamondSuspended ⟨3⟩ = .ok [⟨1⟩] := by
    with_unfolding_all rfl
  have hput : diamondTuples.output.put 0 two = .ok (none, diamondEnd.output) := by
    with_unfolding_all rfl
  have hvalue : diamond.available diamondEnd.evaluation (.output ⟨4⟩) = .ok two := by
    with_unfolding_all rfl
  have hready (n : DataNode) (hn : diamond.sourceNode? (.output ⟨4⟩) = .ok (some n)) :
      diamondEnd.evaluation.isFinished n = true := by
    cases hn
    with_unfolding_all rfl
  -- The sum waits for the shared node and for the switch, which then waits for the shared node as well.
  refine .head hdemand (.head (.wait ?_ hinputs (by simp)) (.head (.run ?_ ?_ runs_diamond_choosing)
    (.head (.wait ?_ hbranch (by simp)) (.head (.run ?_ ?_ runs_diamond_one) (.head (.drop ?_)
      (.head (.run ?_ ?_ runs_diamond_passing) (.head (.drop ?_) (.head (.drop ?_)
        (.head (.run ?_ ?_ runs_diamond_sum) (.head (.drop ?_)
          (.single (.store ?_ hready hvalue hput))))))))))))
  all_goals with_unfolding_all rfl

/--
What runs is the sum, the switch and the node that the two share, but not the node of the other
branch. The switch has one call of two entries.
-/
theorem evaluation_runs_demanded_diamond :
    diamond.DrivenByDemand (·.after.done = false) diamondTuples.output diamondRuns ∧
      (∀ n, diamond.Demanded (·.after.done = false) diamondTuples.output diamondRuns n ↔
        n = ⟨1⟩ ∨ n = ⟨3⟩ ∨ n = ⟨4⟩) ∧
      ∃ entries count, Enters (runsOf diamondRuns ⟨3⟩) entries ∧ entries.length = 2 ∧ Counted entries count := by
  have hrun : runOn {} (Function.run (diamond.evaluateWithin .counterOverflow 8) diamondTuples) =
      (.ok ⟨diamondTuples.input.clear, diamondEnd.output⟩, {}) := by
    with_unfolding_all rfl
  obtain ⟨-, hdriven⟩ := evaluation_runs_demanded built_diamondGraph hrun
  have hdemand : diamond.DrivenByDemand (·.after.done = false) diamondTuples.output diamondRuns :=
    hdriven diamondEnd reaches_diamondEnd ⟨rfl, rfl⟩
  have hiff (n : DataNode) : diamond.Demanded (·.after.done = false) diamondTuples.output diamondRuns n ↔
      n = ⟨1⟩ ∨ n = ⟨3⟩ ∨ n = ⟨4⟩ := by
    rw [← hdemand.demanded_iff]
    simp only [diamondRuns, List.mem_cons, List.not_mem_nil, or_false, exists_eq_or_imp, exists_eq_left,
      @eq_comm _ _ n]
    tauto
  obtain ⟨entries, count, closed, henters, hprotocol⟩ :=
    hdemand.one_call ⟨3⟩ _ _ ((hiff ⟨3⟩).mpr (by simp)) rfl rfl rfl
  refine ⟨hdemand, hiff, entries, count, henters, ?_, hprotocol.counted Builtin.leavesCount_switchBody⟩
  have hlength := congrArg List.length henters
  rw [List.length_map, List.length_map] at hlength
  exact hlength.symm

/-! ## A request that comes to nothing, and an entry that is counted twice -/

/-- A node that takes no inputs feeds the only input of another one. -/
def fedByOne (f : Function) : FunctionGraph where
  graph :=
    { nodes := #[⟨one, none, 0, 0⟩, ⟨f, none, 0, 1⟩]
      inputs := #[⟨⟨1⟩, 0, ⟨0⟩⟩]
      outputs := #[⟨⟨0⟩, 0, [⟨0⟩]⟩, ⟨⟨1⟩, 0, []⟩] }
  inputs := []
  outputs := [.output ⟨1⟩]

theorem built_fedByOne {f : Function} (hin : f.inputs = #[⟨"v", .float⟩]) (hout : f.outputs = #[⟨"r", .float⟩]) :
    (fedByOne f).graph.Built := by
  obtain ⟨name, inputs, outputs, bodies⟩ := f
  subst hin hout
  have hinserted := (DataGraphBuilder.Reachable.empty.insert one none).insert
    ⟨name, #[⟨"v", .float⟩], #[⟨"r", .float⟩], bodies⟩ none
  have hlinked : DataGraphBuilder.Reachable
      ⟨(fedByOne ⟨name, #[⟨"v", .float⟩], #[⟨"r", .float⟩], bodies⟩).graph.nodes, #[⟨⟨1⟩, 0, some ⟨0⟩⟩],
        #[⟨⟨0⟩, 0, [⟨0⟩]⟩, ⟨⟨1⟩, 0, []⟩]⟩ :=
    hinserted.link ⟨0⟩ ⟨0⟩ (by with_unfolding_all rfl)
  have harrows : (fedByOne ⟨name, #[⟨"v", .float⟩], #[⟨"r", .float⟩], bodies⟩).graph.nodes.toList.mapM
      (fedByOne ⟨name, #[⟨"v", .float⟩], #[⟨"r", .float⟩], bodies⟩).graph.feeders = .ok [[], [0]] := rfl
  exact .of_reachable hlinked harrows (by decide +kernel)

def fedTuples (result : Option Value) : Tuples := ⟨⟨#[]⟩, ⟨#[⟨⟨"r", .float⟩, result⟩]⟩⟩

/-- The body asks for its input, but finishes in the same entry. -/
def hastyBody : LazyBody where
  alwaysRequired := []
  entry state := do
    BodyEval.put 0 (.float .one)
    return (state.request 0).finish

def hasty : Function where
  name := "Hasty"
  inputs := #[⟨"v", .float⟩]
  outputs := #[⟨"r", .float⟩]
  bodies := [.lazyTupleCall hastyBody]

def hastyEntry : LazyEntry where
  state := ⟨1, false, #[], []⟩
  tuples := hasty.newTuples
  after := ⟨1, true, #[], [0]⟩
  left := ⟨⟨#[⟨⟨"v", .float⟩, none⟩]⟩, ⟨#[⟨⟨"r", .float⟩, some (.float .one)⟩]⟩⟩

def hastyEnd : Configuration where
  todo := []
  output := (fedTuples (some (.float .one))).output
  stack := []
  evaluation := (Evaluation.start (fedByOne hasty) []).finish ⟨1⟩ [(⟨1⟩, .float .one)]
  context := {}
  runs := [⟨⟨1⟩, [], .entry hastyEntry⟩]

/-- A result that is computed and still missing is stored, and nothing is left to do. -/
theorem move_store_fedByOne (f : Function) (e : Evaluation) (c : Context) (runs : List NodeRun)
    (hf : e.isFinished ⟨1⟩ = true) (hv : (fedByOne f).available e (.output ⟨1⟩) = .ok (.float .one)) :
    (fedByOne f).Move ⟨[(.output ⟨1⟩, 0)], (fedTuples none).output, [], e, c, runs⟩
      ⟨[], (fedTuples (some (.float .one))).output, [], e, c, runs⟩ := by
  have hput : (fedTuples none).output.put 0 (.float .one) = .ok (none, (fedTuples (some (.float .one))).output) := by
    with_unfolding_all rfl
  refine .store (by with_unfolding_all rfl) (fun n hn => ?_) hv hput
  cases hn
  exact hf

theorem reaches_hastyEnd : (fedByOne hasty).Reaches ((fedByOne hasty).initial (fedTuples none) {}) hastyEnd := by
  have hn : (fedByOne hasty).graph.node ⟨1⟩ = .ok ⟨hasty, none, 0, 1⟩ := rfl
  have hb : hasty.lazyTupleCall? = some hastyBody := rfl
  have hentry : hastyEntry.Happens hasty hastyBody (.push {} (.text "Hasty")) (.push {} (.text "Hasty")) := by
    with_unfolding_all rfl
  have hclose : runOn {} (hasty.finishLazy hastyEntry.after hastyEntry.left) = (.ok hastyEntry.left, {}) := by
    with_unfolding_all rfl
  have hinput : (fedByOne hasty).provideInputs (.start (fedByOne hasty) []) ⟨1⟩ [] hasty.newTuples.input =
      .ok hasty.newTuples.input := rfl
  have hrun : (fedByOne hasty).Runs (.start (fedByOne hasty) []) ⟨1⟩ {} ⟨⟨1⟩, [], .entry hastyEntry⟩
      hastyEnd.evaluation {} := by
    with_unfolding_all
      exact .last (x := hastyEntry) hn rfl hb hinput rfl rfl rfl hentry rfl hclose rfl
  have hdemand : (fedByOne hasty).Move ((fedByOne hasty).initial (fedTuples none) {})
      ⟨[(.output ⟨1⟩, 0)], (fedTuples none).output, [⟨1⟩], .start (fedByOne hasty) [], {}, []⟩ := by
    with_unfolding_all exact .demand rfl rfl rfl
  have hstore := move_store_fedByOne hasty hastyEnd.evaluation {} hastyEnd.runs
    (by with_unfolding_all rfl) (by with_unfolding_all rfl)
  refine .head hdemand (.head (.run ?_ ?_ hrun) (.head (.drop ?_) (.single hstore)))
  all_goals with_unfolding_all rfl

/-- The node has been entered once, and waits for its input. -/
def advancingSuspended : Evaluation :=
  (Evaluation.start (fedByOne advancing) []).suspend ⟨1⟩
    ⟨advanced.left, some { advanced.after with requested := [] }, [0]⟩

def advancingEnd : Configuration where
  todo := []
  output := (fedTuples (some (.float .one))).output
  stack := []
  evaluation := (advancingSuspended.finish ⟨0⟩ [(⟨0⟩, .float .one)]).finish ⟨1⟩ [(⟨1⟩, .float .one)]
  context := {}
  runs := [⟨⟨1⟩, [], .entry advanced⟩, ⟨⟨0⟩, [], .call (oneTuples none) (oneTuples (some (.float .one)))⟩,
    ⟨⟨1⟩, [0], .entry miscounted⟩]

theorem reaches_advancingEnd :
    (fedByOne advancing).Reaches ((fedByOne advancing).initial (fedTuples none) {}) advancingEnd := by
  have hone : (fedByOne advancing).graph.node ⟨0⟩ = .ok ⟨one, none, 0, 0⟩ := rfl
  have hn : (fedByOne advancing).graph.node ⟨1⟩ = .ok ⟨advancing, none, 0, 1⟩ := rfl
  have hb : advancing.lazyTupleCall? = some advancingBody := rfl
  have hfirst : (fedByOne advancing).Runs (.start (fedByOne advancing) []) ⟨1⟩ {} ⟨⟨1⟩, [], .entry advanced⟩
      advancingSuspended {} := by
    have hinput : (fedByOne advancing).provideInputs (.start (fedByOne advancing) []) ⟨1⟩ []
        advancing.newTuples.input = .ok advanced.tuples.input := by
      with_unfolding_all rfl
    with_unfolding_all
      exact .next (x := advanced) hn rfl hb hinput rfl rfl rfl (happens_advanced _) rfl (List.cons_ne_nil 0 []) rfl
  have hcall : (fedByOne advancing).Runs advancingSuspended ⟨0⟩ {}
      ⟨⟨0⟩, [], .call (oneTuples none) (oneTuples (some (.float .one)))⟩
      (advancingSuspended.finish ⟨0⟩ [(⟨0⟩, .float .one)]) {} := by
    have hvalues : NodeEntry.outputValues ⟨one, none, 0, 0⟩ (oneTuples (some (.float .one))).output =
        .ok [.float .one] := rfl
    with_unfolding_all exact .call hone rfl rfl rfl hvalues
  have hsecond : (fedByOne advancing).Runs (advancingSuspended.finish ⟨0⟩ [(⟨0⟩, .float .one)]) ⟨1⟩ {}
      ⟨⟨1⟩, [0], .entry miscounted⟩ advancingEnd.evaluation {} := by
    have hinput : (fedByOne advancing).provideInputs (advancingSuspended.finish ⟨0⟩ [(⟨0⟩, .float .one)]) ⟨1⟩ [0]
        advanced.left.input = .ok miscounted.tuples.input := by
      with_unfolding_all rfl
    with_unfolding_all
      exact .last (x := miscounted) hn rfl hb hinput rfl rfl rfl (happens_miscounted _) rfl
        (finishLazy_miscounted _) rfl
  have hdemand : (fedByOne advancing).Move ((fedByOne advancing).initial (fedTuples none) {})
      ⟨[(.output ⟨1⟩, 0)], (fedTuples none).output, [⟨1⟩], .start (fedByOne advancing) [], {}, []⟩ := by
    with_unfolding_all exact .demand rfl rfl rfl
  have hpending : (fedByOne advancing).pendingNodes advancingSuspended ⟨1⟩ = .ok [⟨0⟩] := by
    with_unfolding_all rfl
  have hstore := move_store_fedByOne advancing advancingEnd.evaluation {} advancingEnd.runs
    (by with_unfolding_all rfl) (by with_unfolding_all rfl)
  refine .head hdemand (.head (.run ?_ ?_ hfirst) (.head (.wait ?_ hpending (by simp)) (.head (.run ?_ ?_ hcall)
    (.head (.drop ?_) (.head (.run ?_ ?_ hsecond) (.head (.drop ?_) (.single hstore)))))))
  all_goals with_unfolding_all rfl

/--
If every request of an input that is left empty counted, then demand would not tell what runs. And the
entries of a node are not numbered by their count if the body counts entries by itself.
-/
theorem not_all_requests_demand_nor_entries_count :
    (¬∀ (g : FunctionGraph) (tuples tuples' : Tuples) (c c' : Context),
      g.graph.Built → runOn c (Function.run g.evaluate tuples) = (.ok tuples', c') →
        ∀ k, g.Reaches (g.initial tuples c) k → k.Final →
          g.DrivenByDemand (fun _ => True) tuples.output k.runs) ∧
    ¬∀ (g : FunctionGraph) (tuples tuples' : Tuples) (c c' : Context),
      g.graph.Built → runOn c (Function.run g.evaluate tuples) = (.ok tuples', c') →
        ∀ k, g.Reaches (g.initial tuples c) k → k.Final →
          ∀ n entries, Enters (runsOf k.runs n) entries →
            ∀ i x, entries[i]? = some x → x.state.entryCount.toNat = i + 1 := by
  constructor
  · intro hall
    have hrun : runOn {} (Function.run (fedByOne hasty).evaluate (fedTuples none)) =
        (.ok (fedTuples (some (.float .one))), {}) := by
      with_unfolding_all rfl
    have hdriven := hall _ _ _ _ _ (built_fedByOne rfl rfl) hrun hastyEnd reaches_hastyEnd ⟨rfl, rfl⟩
    have hdemanded : (fedByOne hasty).Demanded (fun _ => True) (fedTuples none).output hastyEnd.runs ⟨1⟩ :=
      .result (s := .output ⟨1⟩) (o := 0) (by simp [fedByOne]) (by with_unfolding_all rfl) rfl
    obtain ⟨r, hr, hnode⟩ := (hdriven.demanded_iff ⟨0⟩).mpr
      (hdemanded.requested (x := hastyEntry) (i := 0) (List.mem_singleton.mpr rfl) trivial (by simp [hastyEntry])
        (by with_unfolding_all rfl) rfl)
    rw [List.mem_singleton.mp hr] at hnode
    cases hnode
  · intro hall
    have hrun : runOn {} (Function.run (fedByOne advancing).evaluate (fedTuples none)) =
        (.ok (fedTuples (some (.float .one))), {}) := by
      with_unfolding_all rfl
    have hcount := hall _ _ _ _ _ (built_fedByOne rfl rfl) hrun advancingEnd reaches_advancingEnd ⟨rfl, rfl⟩ ⟨1⟩
      [advanced, miscounted] rfl 1 miscounted rfl
    exact absurd hcount (by decide)

end FunctionGraph

end Nodeflow
