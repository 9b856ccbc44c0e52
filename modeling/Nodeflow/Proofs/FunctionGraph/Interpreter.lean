import Nodeflow.Proofs.Builtin.Calls
import Nodeflow.Proofs.FunctionGraph.Settling

/-!
# The interpreter of function graphs

The interpreter works on a stack, computes each node at most once, and suspends lazy nodes while it
computes their inputs. It comes to the results of the recursive evaluation all the same, and its
bound for the number of rounds is never reached.
-/

namespace Nodeflow

open Eval Evaluation

namespace FunctionGraph

variable {g : FunctionGraph} {acyclic : WellFounded g.graph.Feeds} {arguments : List (Option Value)}
  {entries : Nat}

theorem ignores_available (g : FunctionGraph) (s : DataSocket) (e : Evaluation) :
    Eval.IgnoresContext (Eval.lift (g.available e s) >>= fun v => pure (v, e)) :=
  ignores_bind (ignores_lift _) fun _ => ignores_pure _

theorem result_available (g : FunctionGraph) (s : DataSocket) (e : Evaluation) :
    (Eval.lift (g.available e s) >>= fun v => pure (v, e)).result =
      (g.available e s).map fun v => (v, e) := by
  rw [result_bind fun _ => ignores_pure _, result_lift]
  cases g.available e s <;> rfl

theorem ignores_value (hi : g.IgnoresContext) (limit : Fault) (rounds : Nat) (e : Evaluation)
    (s : DataSocket) : (g.value limit rounds e s).IgnoresContext := by
  refine ignores_bind (ignores_lift _) fun n? => ?_
  cases n? with
  | none => exact ignores_bind (ignores_pure e) (ignores_available g s)
  | some n => exact ignores_bind (ignores_compute hi limit rounds _ _) (ignores_available g s)

theorem result_value_argument {limit : Fault} {rounds : Nat} {e : Evaluation} {s : DataSocket}
    (hs : g.sourceNode? s = .ok none) :
    (g.value limit rounds e s).result = (g.available e s).map fun v => (v, e) := by
  rw [value, hs]
  exact result_available g s e

theorem result_value_node {limit : Fault} {rounds : Nat} {e : Evaluation}
    {s : DataSocket} {n : DataNode} (hs : g.sourceNode? s = .ok (some n)) :
    (g.value limit rounds e s).result = (g.compute limit rounds [n] e).result >>= fun e =>
      (g.available e s).map fun v => (v, e) := by
  rw [value, hs]
  change (g.compute limit rounds [n] e >>= fun e =>
    Eval.lift (g.available e s) >>= fun v => pure (v, e)).result = _
  rw [result_bind (ignores_available g s)]
  simp only [result_available]

theorem result_value_error {limit : Fault} {rounds : Nat} {e : Evaluation} {s : DataSocket}
    {fault : Fault} (hs : g.sourceNode? s = .error fault) :
    (g.value limit rounds e s).result = .error fault := by
  rw [value, hs]
  rfl

/-- The value of a socket is computed, or that ends in a fault; the limit has no part in it. -/
structure Valued (g : FunctionGraph) (acyclic : WellFounded g.graph.Feeds)
    (arguments : List (Option Value)) (entries : Nat) (e : Evaluation) (s : DataSocket)
    (outcome : Except Fault (Value × Evaluation)) : Prop where
  run : ∀ (limit : Fault) (rounds : Nat), g.roundsFor entries ≤ rounds →
    (g.value limit rounds e s).result = outcome
  value : ∀ v e', outcome = .ok (v, e') →
    e'.Sound g acyclic arguments entries ∧ g.socketValue acyclic arguments s = .ok v
  fault : ∀ fault, outcome = .error fault → ∀ v, g.socketValue acyclic arguments s ≠ .ok v

theorem Valued.of_available {e e' : Evaluation} (he' : e'.Sound g acyclic arguments entries)
    {s : DataSocket} {source : ValueSource} (hs : g.source s = .ok source)
    (hf : ∀ o, source = .node o → ∃ origin, g.graph.outputs[o.index]? = some origin ∧
      e'.isFinished origin.node = true)
    (hrun : ∀ (limit : Fault) (rounds : Nat), g.roundsFor entries ≤ rounds →
      (g.value limit rounds e s).result = (g.available e' s).map fun v => (v, e')) :
    Valued g acyclic arguments entries e s ((g.available e' s).map fun v => (v, e')) := by
  have hag : Agree (g.available e' s) (g.socketValue acyclic arguments s) := by
    rw [socketValue, hs]
    exact he'.available_agree hs hf
  refine ⟨hrun, fun v e'' h => ?_, fun fault h v hv => ?_⟩
  · obtain ⟨v', hv', heq⟩ := map_eq_ok_iff.mp h
    cases heq
    exact ⟨he', (hag v).mp hv'⟩
  · rw [(hag v).mpr hv] at h
    cases h

theorem Valued.of_fault {e : Evaluation} {s : DataSocket} (fault : Fault)
    (hrun : ∀ (limit : Fault) (rounds : Nat), g.roundsFor entries ≤ rounds →
      (g.value limit rounds e s).result = .error fault)
    (hfail : ∀ v, g.socketValue acyclic arguments s ≠ .ok v) :
    Valued g acyclic arguments entries e s (.error fault) := by
  refine ⟨hrun, fun v e' h => ?_, fun _ _ => hfail⟩
  cases h

theorem Valued.agree {e : Evaluation} {s : DataSocket} {outcome : Except Fault (Value × Evaluation)}
    (h : Valued g acyclic arguments entries e s outcome) :
    Agree (outcome.map Prod.fst) (g.socketValue acyclic arguments s) := by
  cases hout : outcome with
  | error fault => exact .faults (fun v hv => by cases hv) (h.fault fault hout)
  | ok x =>
      rw [(h.value x.1 x.2 hout).2]
      exact .refl _

theorem work_lt_roundsFor {e : Evaluation} (he : e.Sound g acyclic arguments entries) (hi : g.IgnoresContext)
    (hends : g.EndsWithin acyclic arguments entries) (rank : DataNode → Nat) (bound : Nat) :
    2 * work g acyclic arguments rank bound e < g.roundsFor entries := by
  have hwork := he.work_le hi hends rank bound
  rw [roundsFor, Nat.mul_assoc, Nat.add_mul, Nat.one_mul]
  omega

theorem exists_valued_node (hg : g.graph.Frozen) (hi : g.IgnoresContext)
    (hends : g.EndsWithin acyclic arguments entries) {e : Evaluation}
    (he : e.Sound g acyclic arguments entries) {s : DataSocket} {o : OutputSocket} {origin : OutputEntry}
    (hs : g.source s = .ok (.node o)) (ho : g.graph.outputs[o.index]? = some origin) :
    ∃ outcome, Valued g acyclic arguments entries e s outcome := by
  have hsource : g.sourceNode? s = .ok (some origin.node) := by
    rw [sourceNode?_eq, hs]
    change (g.graph.output o).map _ = _
    rw [Wiring.output_eq_ok_iff.mpr ho]
    rfl
  obtain ⟨entry, hn, -⟩ := hg.output_place ho
  obtain ⟨rank, hr⟩ := hg.descends
  have hless := work_lt_roundsFor he hi hends rank (rank origin.node + 1)
  rcases settles_node hg.toNumbered hi hends hr he (Array.getElem?_eq_some_iff.mp hn).1 with
    ⟨e', r, h, hle⟩ | ⟨⟨m, hm, hfail⟩, fault, r, hle, hrun⟩
  · refine ⟨_, .of_available h.sound hs (fun o' h' => ?_) fun limit rounds hrounds => ?_⟩
    · cases h'
      exact ⟨origin, ho, h.finished _ (by simp)⟩
    · have hcompute := h.run limit (rounds - r - 1 + 1) []
      rw [show r + (rounds - r - 1 + 1) = rounds by omega, List.append_nil] at hcompute
      rw [result_value_node hsource, hcompute]
      rfl
  · obtain rfl : m = origin.node := by simpa using hm
    refine ⟨_, .of_fault fault (fun limit rounds hrounds => ?_) fun v => ?_⟩
    · have hcompute := hrun limit (rounds - r) []
      rw [show r + (rounds - r) = rounds by omega, List.append_nil] at hcompute
      rw [result_value_node hsource, hcompute]
      rfl
    · rw [socketValue, hs]
      exact outputValue_ne_ok ho hfail v

/-- With rounds enough, the value of a socket is the recursive one, whatever the limit is. -/
theorem exists_valued (hg : g.graph.Frozen) (hi : g.IgnoresContext)
    (hends : g.EndsWithin acyclic arguments entries) {e : Evaluation}
    (he : e.Sound g acyclic arguments entries) (s : DataSocket) :
    ∃ outcome, Valued g acyclic arguments entries e s outcome := by
  have hsource := g.sourceNode?_eq s
  cases hs : g.source s with
  | error fault =>
      rw [hs] at hsource
      refine ⟨_, .of_fault fault (fun _ _ _ => result_value_error hsource) fun v hv => ?_⟩
      rw [socketValue, hs] at hv
      cases hv
  | ok source =>
      rw [hs] at hsource
      cases source with
      | argument k =>
          exact ⟨_, .of_available he hs (by simp) fun _ _ _ => result_value_argument hsource⟩
      | node o =>
          change _ = (g.graph.output o).map _ at hsource
          cases ho : g.graph.output o with
          | ok origin => exact exists_valued_node hg hi hends he hs (Wiring.output_eq_ok_iff.mp ho)
          | error fault =>
              rw [ho] at hsource
              refine ⟨_, .of_fault fault (fun _ _ _ => result_value_error hsource) fun v hv => ?_⟩
              rw [socketValue, hs] at hv
              change g.outputValue acyclic arguments o = _ at hv
              rw [outputValue, ho] at hv
              cases hv

/-- Computes a result, unless there is one already. -/
def computeResult (g : FunctionGraph) (limit : Fault) (rounds : Nat) (x : Tuple × Evaluation) :
    DataSocket × Nat → Eval (Tuple × Evaluation)
  | (s, o) => do
    if ← Eval.lift (x.1.isFilled o) then return x
    let (v, e) ← g.value limit rounds x.2 s
    return ((← Eval.lift (x.1.put o v)).2, e)

theorem computeResults_eq (limit : Fault) (rounds : Nat) (e : Evaluation) (output : Tuple) :
    g.computeResults limit rounds e output =
      g.outputs.zipIdx.foldlM (g.computeResult limit rounds) (output, e) >>= fun x => pure x.1 := rfl

theorem ignores_computeResult (hi : g.IgnoresContext) (limit : Fault) (rounds : Nat)
    (x : Tuple × Evaluation) (r : DataSocket × Nat) :
    (g.computeResult limit rounds x r).IgnoresContext := by
  refine ignores_bind (ignores_lift _) fun filled => ?_
  split
  · exact ignores_pure x
  · exact ignores_bind (ignores_value hi limit rounds x.2 r.1) fun _ =>
      ignores_bind (ignores_lift _) fun _ => ignores_pure _

theorem ignores_foldlM_computeResult (hi : g.IgnoresContext) (limit : Fault) (rounds : Nat)
    (sockets : List (DataSocket × Nat)) (x : Tuple × Evaluation) :
    (sockets.foldlM (g.computeResult limit rounds) x).IgnoresContext := by
  induction sockets generalizing x with
  | nil => exact ignores_pure x
  | cons r sockets ih =>
      rw [List.foldlM_cons]
      exact ignores_bind (ignores_computeResult hi limit rounds x r) ih

theorem result_computeResult (limit : Fault) (rounds : Nat) (output : Tuple) (e : Evaluation)
    (s : DataSocket) (o : Nat) :
    (g.computeResult limit rounds (output, e) (s, o)).result = output.isFilled o >>= fun filled =>
      if filled then .ok (output, e)
      else (g.value limit rounds e s).result >>= fun x => (output.put o x.1).map fun y => (y.2, x.2) := by
  have hput (x : Value × Evaluation) : Eval.IgnoresContext (Eval.lift (output.put o x.1) >>=
      fun y => pure (y.2, x.2)) := ignores_bind (ignores_lift _) fun _ => ignores_pure _
  rw [computeResult]
  cases output.isFilled o with
  | error fault => rfl
  | ok filled =>
      cases filled with
      | true => rfl
      | false =>
          change (g.value limit rounds e s >>= fun x => Eval.lift (output.put o x.1) >>=
            fun y => pure (y.2, x.2)).result = (g.value limit rounds e s).result >>= _
          rw [result_bind hput]
          congr 1
          funext x
          rw [result_bind fun _ => ignores_pure _, result_lift]
          cases output.put o x.1 <;> rfl

/-- A result is computed as in the recursive evaluation, whatever the limit is. -/
theorem exists_computed_result (hg : g.graph.Frozen) (hi : g.IgnoresContext)
    (hends : g.EndsWithin acyclic arguments entries) {e : Evaluation}
    (he : e.Sound g acyclic arguments entries) (output : Tuple) (r : DataSocket × Nat) :
    ∃ outcome : Except Fault (Tuple × Evaluation),
      (∀ (limit : Fault) (rounds : Nat), g.roundsFor entries ≤ rounds →
        (g.computeResult limit rounds (output, e) r).result = outcome) ∧
      (∀ x, outcome = .ok x → x.2.Sound g acyclic arguments entries) ∧
      Agree (outcome.map Prod.fst) (g.addResult acyclic arguments output r) := by
  obtain ⟨s, o⟩ := r
  obtain ⟨outcome, hv⟩ := exists_valued hg hi hends he s
  refine ⟨output.isFilled o >>= fun filled => if filled then .ok (output, e)
    else outcome >>= fun x => (output.put o x.1).map fun y => (y.2, x.2),
    fun limit rounds hrounds => ?_, fun x hx => ?_, ?_⟩
  · rw [result_computeResult, hv.run limit rounds hrounds]
  · obtain ⟨filled, -, hx⟩ := bind_eq_ok_iff.mp hx
    cases filled with
    | true =>
        cases hx
        exact he
    | false =>
        obtain ⟨⟨v, e'⟩, hout, hx⟩ := bind_eq_ok_iff.mp hx
        obtain ⟨y, -, rfl⟩ := map_eq_ok_iff.mp hx
        exact (hv.value v e' hout).1
  · rw [addResult]
    cases output.isFilled o with
    | error fault => exact .refl _
    | ok filled =>
        cases filled with
        | true => exact .refl _
        | false =>
            have hstore : (outcome >>= fun x => (output.put o x.1).map fun y => (y.2, x.2)).map Prod.fst =
                outcome.map Prod.fst >>= fun v => output.put o v >>= fun y => pure y.2 := by
              rcases outcome with _ | x
              · rfl
              · change ((output.put o x.1).map _).map _ = output.put o x.1 >>= _
                cases output.put o x.1 <;> rfl
            exact hstore ▸ hv.agree.bind fun v _ => .refl _

theorem exists_computed_results (hg : g.graph.Frozen) (hi : g.IgnoresContext)
    (hends : g.EndsWithin acyclic arguments entries) (sockets : List (DataSocket × Nat)) {e : Evaluation}
    (he : e.Sound g acyclic arguments entries)
    (output : Tuple) :
    ∃ outcome : Except Fault (Tuple × Evaluation),
      (∀ (limit : Fault) (rounds : Nat), g.roundsFor entries ≤ rounds →
        (sockets.foldlM (g.computeResult limit rounds) (output, e)).result = outcome) ∧
      Agree (outcome.map Prod.fst) (sockets.foldlM (g.addResult acyclic arguments) output) := by
  induction sockets generalizing output e with
  | nil => exact ⟨.ok (output, e), fun _ _ _ => rfl, .refl _⟩
  | cons r sockets ih =>
      obtain ⟨outcome, hrun, hsound, hag⟩ := exists_computed_result hg hi hends he output r
      have hfold (limit : Fault) (rounds : Nat) (hrounds : g.roundsFor entries ≤ rounds) :
          ((r :: sockets).foldlM (g.computeResult limit rounds) (output, e)).result =
            outcome >>= fun x => (sockets.foldlM (g.computeResult limit rounds) x).result := by
        rw [List.foldlM_cons, result_bind (ignores_foldlM_computeResult hi limit rounds sockets),
          hrun limit rounds hrounds]
      cases hout : outcome with
      | error fault =>
          refine ⟨.error fault, fun limit rounds hrounds => ?_, .faults (fun t h => by cases h) fun t h => ?_⟩
          · rw [hfold limit rounds hrounds, hout]
            rfl
          · rw [List.foldlM_cons, bind_eq_ok_iff] at h
            obtain ⟨t', ht', -⟩ := h
            rw [hout] at hag
            cases (hag t').mpr ht'
      | ok x =>
          obtain ⟨outcome', hrun', hag'⟩ := ih (hsound x hout) x.1
          refine ⟨outcome', fun limit rounds hrounds => ?_, ?_⟩
          · rw [hfold limit rounds hrounds, hout]
            exact hrun' limit rounds hrounds
          · rw [hout] at hag
            rw [List.foldlM_cons, (hag x.1).mp rfl]
            exact hag'

theorem run_evaluateWithin (g : FunctionGraph) (limit : Fault) (rounds : Nat) (t : Tuples) :
    Function.run (g.evaluateWithin limit rounds) t =
      g.computeResults limit rounds (.start g t.input.contents) t.output >>= fun output =>
        pure ⟨t.input.clear, output⟩ := by
  simp [Function.run, evaluateWithin]

theorem exists_outcome (hg : g.graph.Frozen) (hi : g.IgnoresContext) (t : Tuples) (c : Context)
    (hends : g.EndsWithin hg.wellFounded t.input.contents entries) :
    ∃ outcome : Except Fault Tuple, Agree outcome (g.results hg.wellFounded t.input.contents t.output) ∧
      ∀ limit rounds, g.roundsFor entries ≤ rounds →
        (Eval.runOn c (Function.run (g.evaluateWithin limit rounds) t)).1 =
          outcome.map fun output => ⟨t.input.clear, output⟩ := by
  obtain ⟨outcome, hrun, hag⟩ := exists_computed_results hg hi hends g.outputs.zipIdx
    (Sound.of_start hg.wellFounded t.input.contents entries) t.output
  refine ⟨outcome.map Prod.fst, hag, fun limit rounds hrounds => ?_⟩
  have hend (x : Tuple × Evaluation) : Eval.IgnoresContext
      ((pure x.1 : Eval Tuple) >>= fun output => pure (Tuples.mk t.input.clear output)) :=
    ignores_bind (ignores_pure _) fun _ => ignores_pure _
  rw [run_evaluateWithin, computeResults_eq, bind_assoc, fst_runOn_bind hend,
    ignores_foldlM_computeResult hi, hrun limit rounds hrounds]
  cases outcome <;> rfl

/-- Every lazy node, carried out on its own, is over after finitely many entries. -/
def Ends (g : FunctionGraph) (acyclic : WellFounded g.graph.Feeds) (arguments : List (Option Value)) : Prop :=
  ∀ (n : DataNode) (entry : NodeEntry) (body : LazyBody), g.graph.nodes[n.index]? = some entry →
    entry.function.tupleCall? = none → entry.function.lazyTupleCall? = some body →
      ∃ entries, Enough (entry.callLazyWithin body (g.inputValue acyclic arguments n)) entries

/-- There are finitely many nodes, so one number of entries is enough for all of them. -/
theorem Ends.exists_endsWithin (h : g.Ends acyclic arguments) (hi : g.IgnoresContext) :
    ∃ entries, g.EndsWithin acyclic arguments entries := by
  have hnode (i : Nat) : ∃ k, ∀ entry body, g.graph.nodes[i]? = some entry →
      entry.function.tupleCall? = none → entry.function.lazyTupleCall? = some body →
        Enough (entry.callLazyWithin body (g.inputValue acyclic arguments ⟨i⟩)) k := by
    by_cases hlazy : ∃ entry body, g.lazyNode? ⟨i⟩ = some (entry, body)
    · obtain ⟨entry, body, hlazy⟩ := hlazy
      obtain ⟨hn, ht, hb⟩ := lazyNode?_eq_some_iff.mp hlazy
      obtain ⟨k, hk⟩ := h ⟨i⟩ entry body hn ht hb
      refine ⟨k, fun entry' body' hn' _ hb' => ?_⟩
      obtain rfl := Option.some.inj (hn.symm.trans hn')
      obtain rfl := Option.some.inj (hb.symm.trans hb')
      exact hk
    · exact ⟨0, fun entry body hn ht hb => absurd ⟨entry, body, lazyNode?_eq_some_iff.mpr ⟨hn, ht, hb⟩⟩ hlazy⟩
  choose enough henough using hnode
  refine ⟨(Finset.range g.graph.nodes.size).sup enough, fun n entry body hn ht hb => ?_⟩
  have hle : enough n.index ≤ (Finset.range g.graph.nodes.size).sup enough :=
    Finset.le_sup (Finset.mem_range.mpr (Array.getElem?_eq_some_iff.mp hn).1)
  have hbody := (hi n.index entry hn).2 body hb
  have hsteady : Steady (entry.callLazyWithin body (g.inputValue acyclic arguments n)) := by
    rw [NodeEntry.callLazyWithin_eq hbody]
    exact NodeEntry.steady_completeWithin hbody _
  exact hsteady.enough_of_le (henough n.index entry body hn ht hb) hle

theorem LeavesCounts.ends (h : g.LeavesCounts) (hi : g.IgnoresContext) : g.Ends acyclic arguments :=
  fun n entry body hn ht hb => ⟨_, h.endsWithin hi n entry body hn ht hb⟩

/--
If every lazy node is over after finitely many entries, then the loop over the stack comes to its end
after some rounds, and further rounds change nothing. It gives exactly the results of the recursive
evaluation, and ends in a fault exactly where that does. Where the lazy bodies leave the counts of
their entries alone, the rounds of the interpreter are enough.
-/
theorem evaluate_eq_results (hg : g.graph.Built) (hi : g.IgnoresContext) (t : Tuples) (c : Context)
    (hends : g.Ends hg.frozen.wellFounded t.input.contents) :
    ∃ outcome : Except Fault Tuples,
      outcome.toOption = (g.results hg.frozen.wellFounded t.input.contents t.output).toOption.map
        (fun output => ⟨t.input.clear, output⟩) ∧
      (∃ enough, ∀ limit rounds, enough ≤ rounds →
        (Eval.runOn c (Function.run (g.evaluateWithin limit rounds) t)).1 = outcome) ∧
      (g.LeavesCounts → (Eval.runOn c (Function.run g.evaluate t)).1 = outcome ∧
        ∀ limit rounds, g.rounds ≤ rounds →
          (Eval.runOn c (Function.run (g.evaluateWithin limit rounds) t)).1 = outcome) := by
  obtain ⟨entries, hentries⟩ := hends.exists_endsWithin hi
  obtain ⟨outcome, hag, hrun⟩ := exists_outcome hg.frozen hi t c hentries
  refine ⟨outcome.map fun output => ⟨t.input.clear, output⟩, ?_, ⟨_, hrun⟩, fun hcounts => ?_⟩
  · rw [← hag.toOption_eq]
    cases outcome <;> rfl
  · -- Both numbers of rounds are enough, so they give the same with the greater one.
    obtain ⟨outcome', -, hrun'⟩ := exists_outcome hg.frozen hi t c (hcounts.endsWithin hi)
    have hsame := (hrun' .counterOverflow _ (Nat.le_max_left g.rounds (g.roundsFor entries))).symm.trans
      (hrun .counterOverflow _ (Nat.le_max_right _ _))
    rw [← hsame]
    exact ⟨hrun' _ _ (Nat.le_refl _), hrun'⟩

/-! ## A graph with a switch -/

/-- A condition, two floats, and the switch between them. -/
def chooserGraph : DataGraph where
  nodes := #[⟨Builtin.functionInput [⟨"c", .bool⟩, ⟨"a", .float⟩, ⟨"b", .float⟩], none, 0, 0⟩,
    ⟨Builtin.switchFloat, none, 0, 3⟩]
  inputs := #[⟨⟨1⟩, 0, ⟨0⟩⟩, ⟨⟨1⟩, 1, ⟨1⟩⟩, ⟨⟨1⟩, 2, ⟨2⟩⟩]
  outputs := #[⟨⟨0⟩, 0, [⟨0⟩]⟩, ⟨⟨0⟩, 1, [⟨1⟩]⟩, ⟨⟨0⟩, 2, [⟨2⟩]⟩, ⟨⟨1⟩, 0, []⟩]

/-- All but the switch are arguments. -/
def chooser : FunctionGraph :=
  ⟨chooserGraph, [.output ⟨0⟩, .output ⟨1⟩, .output ⟨2⟩], [.output ⟨3⟩]⟩

theorem built_chooserGraph : chooserGraph.Built := by
  have hinserted := (DataGraphBuilder.Reachable.empty.insert
    (Builtin.functionInput [⟨"c", .bool⟩, ⟨"a", .float⟩, ⟨"b", .float⟩]) none).insert Builtin.switchFloat none
  have hcondition : DataGraphBuilder.Reachable ⟨chooserGraph.nodes,
      #[⟨⟨1⟩, 0, some ⟨0⟩⟩, ⟨⟨1⟩, 1, none⟩, ⟨⟨1⟩, 2, none⟩],
      #[⟨⟨0⟩, 0, [⟨0⟩]⟩, ⟨⟨0⟩, 1, []⟩, ⟨⟨0⟩, 2, []⟩, ⟨⟨1⟩, 0, []⟩]⟩ :=
    hinserted.link ⟨0⟩ ⟨0⟩ (by with_unfolding_all rfl)
  have hfirst : DataGraphBuilder.Reachable ⟨chooserGraph.nodes,
      #[⟨⟨1⟩, 0, some ⟨0⟩⟩, ⟨⟨1⟩, 1, some ⟨1⟩⟩, ⟨⟨1⟩, 2, none⟩],
      #[⟨⟨0⟩, 0, [⟨0⟩]⟩, ⟨⟨0⟩, 1, [⟨1⟩]⟩, ⟨⟨0⟩, 2, []⟩, ⟨⟨1⟩, 0, []⟩]⟩ :=
    hcondition.link ⟨1⟩ ⟨1⟩ (by with_unfolding_all rfl)
  have hsecond : DataGraphBuilder.Reachable ⟨chooserGraph.nodes,
      #[⟨⟨1⟩, 0, some ⟨0⟩⟩, ⟨⟨1⟩, 1, some ⟨1⟩⟩, ⟨⟨1⟩, 2, some ⟨2⟩⟩], chooserGraph.outputs⟩ :=
    hfirst.link ⟨2⟩ ⟨2⟩ (by with_unfolding_all rfl)
  have harrows : chooserGraph.nodes.toList.mapM chooserGraph.feeders = .ok [[], [0, 0, 0]] := rfl
  exact .of_reachable hsecond harrows (by decide +kernel)

theorem ignoresContext_chooser : chooser.IgnoresContext := by
  intro n entry hn
  match n with
  | 0 =>
      cases hn
      exact ⟨fun _ h => (by cases h), fun _ h => (by cases h)⟩
  | 1 =>
      cases hn
      exact Operation.switch.ignoresContext
  | n + 2 => cases hn

def chosen : Tuples where
  input := ⟨#[⟨⟨"c", .bool⟩, some (.bool true)⟩, ⟨⟨"a", .float⟩, some (.float .one)⟩, ⟨⟨"b", .float⟩, none⟩]⟩
  output := Tuple.new #[⟨"Result", .float⟩]

theorem leavesCounts_chooser : chooser.LeavesCounts := by
  intro n entry body hn hb
  match n with
  | 0 =>
      cases hn
      cases hb
  | 1 =>
      cases hn
      cases hb
      exact Builtin.leavesCount_switchBody
  | n + 2 => cases hn

/-- The switch is evaluated without the argument that its condition leaves out. -/
theorem evaluate_chooser : (Eval.runOn {} (Function.run chooser.evaluate chosen)).1.toOption =
    (chooser.results built_chooserGraph.frozen.wellFounded chosen.input.contents chosen.output).toOption.map
      fun output => ⟨chosen.input.clear, output⟩ := by
  obtain ⟨outcome, hresults, -, hcounts⟩ := evaluate_eq_results built_chooserGraph ignoresContext_chooser chosen {}
    (leavesCounts_chooser.ends ignoresContext_chooser)
  rw [(hcounts leavesCounts_chooser).1, hresults]

end FunctionGraph

end Nodeflow
