import Nodeflow.Proofs.FunctionGraph.Machine

/-!
# The log of an evaluation

At every moment of an evaluation, what the log tells about a node fits with how far the node has come:
an untouched node has not been run, a finished tuple-call node has been called once, and the runs of a
lazy node are the entries of one call that keep the protocol, the last of which has finished the call
or has left it suspended.
-/

namespace Nodeflow

open Eval Evaluation

namespace FunctionGraph

variable {g : FunctionGraph} {e e' : Evaluation} {n m : DataNode} {c c' : Context} {r : NodeRun}
  {runs : List NodeRun}

/-- The runs of a node among others. -/
def runsOf (runs : List NodeRun) (n : DataNode) : List NodeRun := runs.filter (·.node = n)

@[simp] theorem runsOf_append_self (h : r.node = n) : runsOf (runs ++ [r]) n = runsOf runs n ++ [r] := by
  simp [runsOf, h]

theorem runsOf_append_of_ne (h : r.node ≠ n) : runsOf (runs ++ [r]) n = runsOf runs n := by
  simp [runsOf, h]

/-- The runs of a node are these entries. -/
def Enters (runs : List NodeRun) (entries : List LazyEntry) : Prop :=
  runs.map NodeRun.action = entries.map NodeAction.entry

theorem Enters.concat {entries : List LazyEntry} (h : Enters runs entries) {given : List Nat}
    {x : LazyEntry} (n : DataNode) : Enters (runs ++ [⟨n, given, .entry x⟩]) (entries ++ [x]) := by
  rw [Enters, List.map_append, List.map_append, h]
  rfl

/-- How far a node has come, and which runs have brought it there. -/
inductive Standing (g : FunctionGraph) (e : Evaluation) (n : DataNode) : List NodeRun → Prop
  | untouched (hf : e.isFinished n = false) (hs : e.suspendedCall? n = none) : Standing g e n []
  | called {entry body given tuples results} (hn : g.graph.node n = .ok entry)
      (ht : entry.function.tupleCall? = some body) (hf : e.isFinished n = true)
      (hs : e.suspendedCall? n = none) : Standing g e n [⟨n, given, .call tuples results⟩]
  | suspended {runs entry body entries x needed} (hn : g.graph.node n = .ok entry)
      (ht : entry.function.tupleCall? = none) (hb : entry.function.lazyTupleCall? = some body)
      (hruns : Enters runs entries) (hunfolds : Unfolds body entries) (hlast : entries.getLast? = some x)
      (hdone : x.after.done = false)
      (hneeded : Function.stillEmpty x.left.input x.after.requested = .ok needed)
      (hf : e.isFinished n = false)
      (hs : e.suspendedCall? n = some ⟨x.left, some { x.after with requested := [] }, needed⟩) :
      Standing g e n runs
  | completed {runs entry body entries x closed c c'} (hn : g.graph.node n = .ok entry)
      (ht : entry.function.tupleCall? = none) (hb : entry.function.lazyTupleCall? = some body)
      (hruns : Enters runs entries) (hunfolds : Unfolds body entries) (hlast : entries.getLast? = some x)
      (hdone : x.after.done = true)
      (hclose : runOn c (entry.function.finishLazy x.after x.left) = (.ok closed, c'))
      (hf : e.isFinished n = true) (hs : e.suspendedCall? n = none) : Standing g e n runs

theorem Standing.of_sameAt (h : Standing g e n runs) (hsame : e.SameAt e' n) : Standing g e' n runs := by
  obtain ⟨hfinished, hsuspended⟩ := hsame
  cases h with
  | untouched hf hs => exact .untouched (hfinished ▸ hf) (hsuspended ▸ hs)
  | called hn ht hf hs => exact .called hn ht (hfinished ▸ hf) (hsuspended ▸ hs)
  | suspended hn ht hb hruns hunfolds hlast hdone hneeded hf hs =>
      exact .suspended hn ht hb hruns hunfolds hlast hdone hneeded (hfinished ▸ hf) (hsuspended ▸ hs)
  | completed hn ht hb hruns hunfolds hlast hdone hclose hf hs =>
      exact .completed hn ht hb hruns hunfolds hlast hdone hclose (hfinished ▸ hf) (hsuspended ▸ hs)

theorem isFilled_provideInputs {positions : List Nat} {t t' : Tuple}
    (h : g.provideInputs e n positions t = .ok t') : (∀ i ∈ positions, t'.isFilled i = .ok true) ∧
      ∀ j, t.isFilled j = .ok true → t'.isFilled j = .ok true := by
  induction positions generalizing t with
  | nil =>
      cases h
      exact ⟨by simp, fun _ hj => hj⟩
  | cons i positions ih =>
      rw [provideInputs_cons, bind_eq_ok_iff] at h
      obtain ⟨filled, hfilled, h⟩ := h
      cases filled with
      | true =>
          obtain ⟨hall, hkept⟩ := ih h
          exact ⟨List.forall_mem_cons.mpr ⟨hkept i hfilled, hall⟩, hkept⟩
      | false =>
          simp only [Bool.false_eq_true, if_false, bind_eq_ok_iff, Prod.exists] at h
          obtain ⟨v, -, old, t₁, hput, h⟩ := h
          obtain ⟨hall, hkept⟩ := ih h
          exact ⟨List.forall_mem_cons.mpr ⟨hkept i (Tuple.isFilled_put hput), hall⟩,
            fun j hj => hkept j (Tuple.isFilled_put_of_isFilled hput hj)⟩

theorem Standing.enters {entry : NodeEntry} {body : LazyBody} {input : Tuple} {s : LazyState}
    {x : LazyEntry} (h : Standing g e n runs) (hf : e.isFinished n = false)
    (hn : g.graph.node n = .ok entry) (hb : entry.function.lazyTupleCall? = some body)
    (hinput : g.provideInputs e n (e.callOf n entry body).needed
      (e.callOf n entry body).tuples.input = .ok input)
    (hstate : entry.stateOf body (e.callOf n entry body) input = .ok s)
    (hnext : s.nextEntry = .ok x.state)
    (htuples : x.tuples = { (e.callOf n entry body).tuples with input }) (hrun : x.RunBy body) :
    ∃ entries, Enters runs entries ∧ Unfolds body (entries ++ [x]) := by
  have hx : x.tuples.input = input := by rw [htuples]
  obtain ⟨hprovided, hkept⟩ := isFilled_provideInputs hinput
  cases h with
  | called _ _ hf' => simp [hf'] at hf
  | completed _ _ _ _ _ _ _ _ hf' => simp [hf'] at hf
  | untouched _ hs =>
      rw [callOf, hs] at hstate
      change entry.function.startLazy body input = _ at hstate
      obtain rfl := Function.startLazy_eq_ok hstate
      refine ⟨[], rfl, .first hrun ⟨hnext, fun i hi => ?_⟩⟩
      rw [hx]
      exact Function.isFilled_of_startLazy hstate hi
  | @suspended _ _ _ entries y needed hn' _ hb' hruns hunfolds hlast hdone hneeded _ hs =>
      obtain rfl := Except.ok.inj (hn.symm.trans hn')
      obtain rfl := Option.some.inj (hb.symm.trans hb')
      rw [callOf, hs] at hstate hprovided hkept
      cases hstate
      refine ⟨entries, hruns, hunfolds.concat hlast hrun ⟨hdone, hnext, fun i hi => ?_⟩⟩
      rw [hx]
      exact (Function.isFilled_or_mem_stillEmpty hneeded hi).elim (hkept i) (hprovided i)

theorem Runs.sameAt (hrun : g.Runs e n c r e' c') (hfin : n.index < e.finished.size) (hm : m ≠ n) :
    e.SameAt e' m := by
  have hfinish (outputs : List (OutputSocket × Value)) : e.SameAt (e.finish n outputs) m := by
    refine ⟨?_, suspendedCall?_finish_of_ne hm outputs⟩
    rw [isFinished_finish hfin, decide_eq_false hm, Bool.false_or]
  cases hrun with
  | call => exact hfinish _
  | last => exact hfinish _
  | next => exact ⟨rfl, suspendedCall?_suspend_of_ne hm _⟩

/-- A run brings its node on, from where its runs so far have brought it. -/
theorem Standing.run (h : Standing g e n runs) (hfin : n.index < e.finished.size)
    (hsus : n.index < e.suspended.size) (hf : e.isFinished n = false) (hrun : g.Runs e n c r e' c') :
    Standing g e' n (runs ++ [r]) := by
  cases hrun with
  | call hn ht =>
      cases h with
      | untouched => exact .called hn ht (by simp [isFinished_finish hfin]) (suspendedCall?_finish_self _)
      | called _ _ hf' => simp [hf'] at hf
      | suspended hn' ht' =>
          obtain rfl := Except.ok.inj (hn.symm.trans hn')
          simp [ht] at ht'
      | completed _ _ _ _ _ _ _ _ hf' => simp [hf'] at hf
  | last hn ht hb hinput hstate hnext htuples hrun hdone hclose =>
      obtain ⟨entries, hruns, hunfolds⟩ := h.enters hf hn hb hinput hstate hnext htuples hrun.runBy
      exact .completed hn ht hb (hruns.concat n) hunfolds (by simp) hdone hclose
        (by simp [isFinished_finish hfin]) (suspendedCall?_finish_self _)
  | next hn ht hb hinput hstate hnext htuples hrun hdone _ hneeded =>
      obtain ⟨entries, hruns, hunfolds⟩ := h.enters hf hn hb hinput hstate hnext htuples hrun.runBy
      exact .suspended hn ht hb (hruns.concat n) hunfolds (by simp) hdone hneeded hf
        (suspendedCall?_suspend_self hsus _)

/-- The state of an evaluation and the log of its runs fit together. -/
structure Logged (g : FunctionGraph) (e : Evaluation) (runs : List NodeRun) : Prop where
  finished_size : e.finished.size = g.graph.nodes.size
  suspended_size : e.suspended.size = g.graph.nodes.size
  computed : ∀ o, e.isComputed o = true →
    ∃ origin, g.graph.outputs[o.index]? = some origin ∧ e.isFinished origin.node = true
  standing : ∀ n, Standing g e n (runsOf runs n)

namespace Logged

theorem start (g : FunctionGraph) (arguments : List (Option Value)) :
    Logged g (.start g arguments) [] := by
  refine ⟨by simp [Evaluation.start], by simp [Evaluation.start], fun o ho => ?_, fun n => ?_⟩
  · simp only [isComputed, Evaluation.start, Array.getElem?_replicate] at ho
    split at ho <;> cases ho
  · exact .untouched (isFinished_start n) (suspendedCall?_start n)

/-- The outputs of a finished node are the only ones that come to be computed. -/
theorem computed_finish (h : Logged g e runs) (hg : Wiring.Numbered g.graph) {entry : NodeEntry}
    (hn : g.graph.node n = .ok entry) {vs : List Value} (hlen : vs.length = entry.outputCount)
    {o : OutputSocket} (ho : (e.finish n (entry.outputSockets.zip vs)).isComputed o = true) :
    ∃ origin, g.graph.outputs[o.index]? = some origin ∧
      (e.finish n (entry.outputSockets.zip vs)).isFinished origin.node = true := by
  have hn' := Wiring.node_eq_ok_iff.mp hn
  have hlt : n.index < e.finished.size := h.finished_size ▸ (Array.getElem?_eq_some_iff.mp hn').1
  rw [isComputed, getElem?_computed_finish hlen] at ho
  split at ho
  · rename_i hin
    obtain ⟨origin, ho', rfl, -⟩ := hg.exists_output hn' hin
    exact ⟨origin, ho', by simp [isFinished_finish hlt]⟩
  · obtain ⟨origin, horigin, hf⟩ := h.computed o ho
    exact ⟨origin, horigin, isFinished_finish_of_isFinished hf _⟩

theorem lt_size (h : Logged g e runs) (hrun : g.Runs e n c r e' c') :
    n.index < e.finished.size ∧ n.index < e.suspended.size := by
  obtain ⟨entry, hn⟩ : ∃ entry, g.graph.node n = .ok entry := by cases hrun <;> exact ⟨_, ‹_›⟩
  have hlt := (Array.getElem?_eq_some_iff.mp (Wiring.node_eq_ok_iff.mp hn)).1
  exact ⟨h.finished_size ▸ hlt, h.suspended_size ▸ hlt⟩

theorem run (h : Logged g e runs) (hg : Wiring.Numbered g.graph) (hf : e.isFinished n = false)
    (hrun : g.Runs e n c r e' c') : Logged g e' (runs ++ [r]) := by
  have hnode := hrun.node_eq
  obtain ⟨hfin, hsus⟩ := h.lt_size hrun
  refine ⟨?_, ?_, ?_, fun m => ?_⟩
  · cases hrun <;> simpa [finish, suspend] using h.finished_size
  · cases hrun <;> simpa [finish, suspend] using h.suspended_size
  · cases hrun with
    | call hn _ _ _ hvalues => exact fun o => h.computed_finish hg hn (NodeEntry.length_outputValues hvalues)
    | last hn _ _ _ _ _ _ _ _ _ hvalues =>
        exact fun o => h.computed_finish hg hn (NodeEntry.length_outputValues hvalues)
    | next => exact h.computed
  · by_cases hm : m = n
    · rw [hm, runsOf_append_self hnode]
      exact (h.standing n).run hfin hsus hf hrun
    · rw [runsOf_append_of_ne (hnode ▸ Ne.symm hm)]
      exact (h.standing m).of_sameAt (hrun.sameAt hfin hm)

theorem of_reaches (hg : Wiring.Numbered g.graph) {tuples : Tuples} {k : Configuration}
    (h : g.Reaches (g.initial tuples c) k) : Logged g k.evaluation k.runs := by
  induction h with
  | refl => exact start g _
  | tail _ hmove ih =>
      cases hmove with
      | run hf _ hrun => exact ih.run hg hf hrun
      | keep | demand | store | drop | wait => exact ih

end Logged

theorem Logged.protocol (h : Logged g e runs) {entry : NodeEntry} {body : LazyBody}
    (hn : g.graph.node n = .ok entry) (ht : entry.function.tupleCall? = none)
    (hb : entry.function.lazyTupleCall? = some body) (hf : e.isFinished n = true) :
    ∃ entries x closed c c', Enters (runsOf runs n) entries ∧ entries.getLast? = some x ∧
      runOn c (entry.function.finishLazy x.after x.left) = (.ok closed, c') ∧
        Protocol body entries x.after.entryCount closed := by
  have hstanding := h.standing n
  generalize runsOf runs n = own at hstanding ⊢
  cases hstanding with
  | untouched hf' => simp [hf'] at hf
  | suspended _ _ _ _ _ _ _ _ hf' => simp [hf'] at hf
  | called hn' ht' =>
      obtain rfl := Except.ok.inj (hn.symm.trans hn')
      simp [ht] at ht'
  | completed hn' _ hb' hruns hunfolds hlast hdone hclose =>
      obtain rfl := Except.ok.inj (hn.symm.trans hn')
      obtain rfl := Option.some.inj (hb.symm.trans hb')
      exact ⟨_, _, _, _, _, hruns, hlast, hclose, hunfolds.protocol hlast hdone hclose⟩

/--
Every lazy call that comes to its end keeps the protocol: a call that is driven by a provider, however
many entries it takes, and a call of a node in the evaluation of a function graph, at any moment of an
evaluation, whether the evaluation returns in the end or not. The entries are counted by their number
where the body leaves the count alone.
-/
theorem lazy_calls_keep_protocol :
    (∀ (f : Function) (body : LazyBody) (provide : Nat → Tuple → Eval Tuple) (limit : Fault) (rounds : Nat)
      (tuples closed : Tuples) (c c' : Context) (count : UInt32), Function.Stores provide →
      runOn c (f.callLazyWithin body provide limit rounds tuples) = (.ok (count, closed), c') →
        ∃! entries, f.CallsWith body provide tuples c entries count closed c' ∧
          Protocol body entries count closed) ∧
    ∀ (g : FunctionGraph) (tuples : Tuples) (c : Context), g.graph.Built →
      (∀ limit rounds tuples' c', runOn c (Function.run (g.evaluateWithin limit rounds) tuples) =
        (.ok tuples', c') → ∃ k, g.Reaches (g.initial tuples c) k ∧ k.Final ∧
          k.output = tuples'.output ∧ k.context = c') ∧
      ∀ k, g.Reaches (g.initial tuples c) k → ∀ n entry body, g.graph.node n = .ok entry →
        entry.function.tupleCall? = none → entry.function.lazyTupleCall? = some body →
        k.evaluation.isFinished n = true →
          ∃ entries x closed c₁ c₂, Enters (runsOf k.runs n) entries ∧ entries.getLast? = some x ∧
            runOn c₁ (entry.function.finishLazy x.after x.left) = (.ok closed, c₂) ∧
              Protocol body entries x.after.entryCount closed := by
  refine ⟨fun f body provide limit rounds tuples closed c c' count hp hcall => ?_, fun g tuples c hg =>
    ⟨fun limit rounds tuples' c' => exists_reaches, fun k hk n entry body hn ht hb hf => ?_⟩⟩
  · obtain ⟨entries, h⟩ := Function.exists_callsWith hcall
    exact ⟨entries, ⟨h, h.protocol hp⟩, fun others hothers => hothers.1.unique h⟩
  · exact (Logged.of_reaches hg.frozen.toNumbered hk).protocol hn ht hb hf

/-! ## A switch that is called and evaluated -/

def storeOne (i : Nat) (input : Tuple) : Eval Tuple :=
  Eval.lift ((input.put i (.float .one)).map Prod.snd)

theorem stores_storeOne : Function.Stores storeOne := by
  intro i input input' c c' h
  obtain ⟨⟨old, _⟩, hput, rfl⟩ := map_eq_ok_iff.mp (runOn_lift_eq_ok_iff.mp h).1
  exact ⟨Tuple.isFilled_put hput, fun j => Tuple.isFilled_put_of_isFilled hput⟩

def switchTuples (condition true? false? result : Option Value) : Tuples :=
  ⟨⟨#[⟨⟨"Condition", .bool⟩, condition⟩, ⟨⟨"True", .float⟩, true?⟩, ⟨⟨"False", .float⟩, false?⟩]⟩,
    ⟨#[⟨⟨"Result", .float⟩, result⟩]⟩⟩

/-- The first entry of a switch asks for the branch that the condition chooses. -/
def choosing : LazyEntry where
  state := ⟨1, false, #[0], []⟩
  tuples := switchTuples (some (.bool true)) none none none
  after := ⟨1, false, #[1], [1]⟩
  left := switchTuples none none none none

/-- The second entry passes the branch on. -/
def passing : LazyEntry where
  state := ⟨2, false, #[1], []⟩
  tuples := switchTuples none (some (.float .one)) none none
  after := ⟨2, true, #[1], []⟩
  left := switchTuples none none none (some (.float .one))

theorem happens_choosing (c : Context) : choosing.Happens Builtin.switchFloat Builtin.switchBody c c := by
  with_unfolding_all rfl

theorem happens_passing (c : Context) : passing.Happens Builtin.switchFloat Builtin.switchBody c c := by
  with_unfolding_all rfl

theorem finishLazy_passing (c : Context) : runOn c (Builtin.switchFloat.finishLazy passing.after passing.left) =
    (.ok passing.left, c) := by
  with_unfolding_all rfl

def chooserSuspended : Evaluation :=
  (Evaluation.start chooser chosen.input.contents).suspend ⟨1⟩
    ⟨choosing.left, some { choosing.after with requested := [] }, [1]⟩

def chooserFinished : Configuration where
  todo := [(.output ⟨3⟩, 0)]
  output := chosen.output
  stack := [⟨1⟩]
  evaluation := chooserSuspended.finish ⟨1⟩ [(⟨3⟩, .float .one)]
  context := {}
  runs := [⟨⟨1⟩, [0], .entry choosing⟩, ⟨⟨1⟩, [1], .entry passing⟩]

theorem reaches_chooserFinished : chooser.Reaches (chooser.initial chosen {}) chooserFinished := by
  have hn : chooser.graph.node ⟨1⟩ = .ok ⟨Builtin.switchFloat, none, 0, 3⟩ := rfl
  have hb : Builtin.switchFloat.lazyTupleCall? = some Builtin.switchBody := rfl
  have hdemand : chooser.Move (chooser.initial chosen {})
      ⟨[(.output ⟨3⟩, 0)], chosen.output, [⟨1⟩], .start chooser chosen.input.contents, {}, []⟩ := by
    with_unfolding_all exact .demand rfl rfl rfl
  have hfirst : chooser.Runs (.start chooser chosen.input.contents) ⟨1⟩ {}
      ⟨⟨1⟩, [0], .entry choosing⟩ chooserSuspended {} := by
    have hinput : chooser.provideInputs (.start chooser chosen.input.contents) ⟨1⟩ [0]
        (switchTuples none none none none).input = .ok choosing.tuples.input := by
      with_unfolding_all rfl
    with_unfolding_all
      exact .next (x := choosing) hn rfl hb hinput rfl rfl rfl (happens_choosing _) rfl (List.cons_ne_nil 1 []) rfl
  have hsecond : chooser.Runs chooserSuspended ⟨1⟩ {} ⟨⟨1⟩, [1], .entry passing⟩
      chooserFinished.evaluation {} := by
    have hinput : chooser.provideInputs chooserSuspended ⟨1⟩ [1] choosing.left.input =
        .ok passing.tuples.input := by
      with_unfolding_all rfl
    with_unfolding_all
      exact .last (x := passing) hn rfl hb hinput rfl rfl rfl (happens_passing _) rfl (finishLazy_passing _) rfl
  refine .head hdemand (.head (.run ?_ ?_ hfirst) (.single (.run ?_ ?_ hsecond)))
  all_goals with_unfolding_all rfl

theorem lazy_calls_keep_protocol_switch :
    (∃ entries, Protocol Builtin.switchBody entries 2 passing.left ∧ Counted entries 2) ∧
      ∃ entries x closed, Enters (runsOf chooserFinished.runs ⟨1⟩) entries ∧ entries.getLast? = some x ∧
        Protocol Builtin.switchBody entries x.after.entryCount closed ∧
          Counted entries x.after.entryCount := by
  have hcall : runOn {} (Builtin.switchFloat.callLazyWithin Builtin.switchBody storeOne .counterOverflow 2
      choosing.tuples) = (.ok (2, passing.left), {}) := by
    with_unfolding_all rfl
  obtain ⟨hdriven, hevaluated⟩ := lazy_calls_keep_protocol
  obtain ⟨entries, ⟨-, hprotocol⟩, -⟩ := hdriven _ _ _ _ _ _ _ _ _ _ stores_storeOne hcall
  obtain ⟨entries', x, closed, -, -, hruns, hlast, -, hprotocol'⟩ :=
    (hevaluated chooser chosen {} built_chooserGraph).2 chooserFinished reaches_chooserFinished ⟨1⟩
      ⟨Builtin.switchFloat, none, 0, 3⟩ Builtin.switchBody rfl rfl rfl (by with_unfolding_all rfl)
  have hcounts := Builtin.leavesCount_switchBody
  exact ⟨⟨entries, hprotocol, hprotocol.counted hcounts⟩, entries', x, closed, hruns, hlast, hprotocol',
    hprotocol'.counted hcounts⟩

/-! ## A body that counts an entry by itself -/

/-- The first entry counts another one before it asks for the input. -/
def advancingBody : LazyBody where
  alwaysRequired := []
  entry state := do
    if state.entryCount = 1 then
      let state ← BodyEval.lift state.nextEntry
      return state.request 0
    else
      let x ← BodyEval.takeFloat 0
      BodyEval.put 0 (.float x)
      return state.finish

def advancing : Function where
  name := "Advancing"
  inputs := #[⟨"v", .float⟩]
  outputs := #[⟨"r", .float⟩]
  bodies := [.lazyTupleCall advancingBody]

def advancingTuples (v result : Option Value) : Tuples :=
  ⟨⟨#[⟨⟨"v", .float⟩, v⟩]⟩, ⟨#[⟨⟨"r", .float⟩, result⟩]⟩⟩

/-- The first entry leaves a count of two. -/
def advanced : LazyEntry where
  state := ⟨1, false, #[], []⟩
  tuples := advancingTuples none none
  after := ⟨2, false, #[], [0]⟩
  left := advancingTuples none none

/-- So the second entry is counted as the third one. -/
def miscounted : LazyEntry where
  state := ⟨3, false, #[], []⟩
  tuples := advancingTuples (some (.float .one)) none
  after := ⟨3, true, #[], []⟩
  left := advancingTuples none (some (.float .one))

theorem happens_advanced (c : Context) : advanced.Happens advancing advancingBody c c := by
  with_unfolding_all rfl

theorem happens_miscounted (c : Context) : miscounted.Happens advancing advancingBody c c := by
  with_unfolding_all rfl

theorem finishLazy_miscounted (c : Context) : runOn c (advancing.finishLazy miscounted.after miscounted.left) =
    (.ok miscounted.left, c) := by
  with_unfolding_all rfl

theorem callsWith_advancing : advancing.CallsWith advancingBody storeOne advanced.tuples {}
    [advanced, miscounted] 3 miscounted.left {} := by
  have hinput : runOn {} (Function.provideAll storeOne [0] advanced.left.input) =
      (.ok miscounted.tuples.input, {}) := by
    with_unfolding_all rfl
  have hdrives : Function.Drives advancing advancingBody storeOne advancingBody.newState advanced.tuples {}
      [advanced, miscounted] (miscounted.after, miscounted.left) {} := by
    with_unfolding_all
      exact .next rfl rfl (happens_advanced {}) rfl (List.cons_ne_nil 0 []) rfl hinput
        (.last rfl rfl (happens_miscounted {}) rfl)
  exact ⟨_, _, _, _, rfl, hdrives, finishLazy_miscounted {}, rfl⟩

/-- A body that changes the count has entries that are not counted by their number. -/
theorem not_all_entries_counted : ¬∀ (f : Function) (body : LazyBody) (provide : Nat → Tuple → Eval Tuple)
    (tuples closed : Tuples) (c c' : Context) (count : UInt32), Function.Stores provide →
      runOn c (f.callLazy body provide tuples) = (.ok (count, closed), c') →
        ∃ entries, f.CallsWith body provide tuples c entries count closed c' ∧ Counted entries count := by
  intro hall
  have hcall : runOn {} (advancing.callLazy advancingBody storeOne advanced.tuples) =
      (.ok (3, miscounted.left), {}) := by
    with_unfolding_all rfl
  obtain ⟨entries, hcalls, hcounted⟩ := hall _ _ _ _ _ _ _ _ stores_storeOne hcall
  rw [hcalls.unique callsWith_advancing] at hcounted
  exact absurd hcounted.count_eq (by decide)

end FunctionGraph

end Nodeflow
