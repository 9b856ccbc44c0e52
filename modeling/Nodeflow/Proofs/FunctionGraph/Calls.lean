import Nodeflow.Proofs.FunctionGraph.Recursion
import Nodeflow.Proofs.Tuple
import Mathlib.Order.Lattice.Nat

/-!
# Interrupted calls

A lazy node may be suspended between two entries. What is still to come of its call is described by
`NodeEntry.complete`, which carries the call to its end without a further interruption. A call that
has an end is over after a number of further entries, and one less behind each of them.
-/

namespace Nodeflow

open Eval

namespace NodeEntry

variable {entry : NodeEntry} {body : LazyBody} {input : Nat → Except Fault Value}
  {positions : List Nat} {t t' : Tuple}

theorem preset_cons (i : Nat) : preset input (i :: positions) t =
    input i >>= fun v => t.put i v >>= fun x => preset input positions x.2 := by
  simp only [preset, List.foldlM_cons, bind_assoc, pure_bind]

theorem preset_ne_ok {i : Nat} (hi : i ∈ positions) (hv : ∀ v, input i ≠ .ok v) :
    ∀ t', preset input positions t ≠ .ok t' := by
  induction positions generalizing t with
  | nil => simp at hi
  | cons j positions ih =>
      intro t' h
      simp only [preset_cons, bind_eq_ok_iff] at h
      obtain ⟨v, hj, x, -, h⟩ := h
      rcases List.mem_cons.mp hi with rfl | hi
      · exact hv v hj
      · exact ih hi t' h

/-- An element is empty, or it holds the value that belongs there. -/
def Expected (input : Nat → Except Fault Value) (t : Tuple) (i : Nat) : Prop :=
  ∀ slot v, t.slots[i]? = some slot → slot.content = some v →
    input i = .ok v ∧ v.type = slot.parameter.type

theorem expected_of_empty {i : Nat} (h : t.isFilled i = .ok false) : Expected input t i := by
  intro slot v hs hv
  obtain ⟨content, hc, hnone⟩ := Tuple.isFilled_eq_ok_iff.mp h
  obtain ⟨slot', hs', rfl⟩ := Tuple.value?_eq_ok_iff.mp hc
  rw [hs] at hs'
  cases hs'
  simp [hv] at hnone

theorem expected_new (layout : Array Parameter) (i : Nat) : Expected input (Tuple.new layout) i := by
  intro slot v hs hv
  simp only [Tuple.new, Array.getElem?_map, Option.map_eq_some_iff] at hs
  obtain ⟨p, -, rfl⟩ := hs
  cases hv

theorem Expected.put {i j : Nat} {v : Value} {old : Option Value} (h : Expected input t j)
    (hv : input i = .ok v) (hp : t.put i v = .ok (old, t')) : Expected input t' j := by
  intro slot w hs hw
  by_cases hij : i = j
  · subst hij
    obtain ⟨slot', hs', hc, ht⟩ := Tuple.getElem?_put hp
    rw [hs] at hs'
    cases hs'
    rw [hw] at hc
    cases hc
    exact ⟨hv, ht⟩
  · exact h slot w (Tuple.getElem?_put_of_ne hp hij ▸ hs) hw

@[simp] theorem result_provideAll (needed : List Nat) (t : Tuple) :
    (Function.provideAll (provide input) needed t).result = preset input needed t := by
  induction needed generalizing t with
  | nil => rfl
  | cons i needed ih =>
      have hrest (t : Tuple) : (Function.provideAll (provide input) needed t).IgnoresContext :=
        Function.ignores_provideAll (fun _ _ => ignores_lift _) needed t
      change (provide input i t >>= fun t => Function.provideAll (provide input) needed t).result = _
      rw [result_bind hrest, preset_cons]
      simp only [ih, provide, result_lift, preset_cons, bind_assoc]
      rfl

/-- A call of a lazy node that has not been opened yet. -/
def opening (entry : NodeEntry) (body : LazyBody) : SuspendedCall :=
  ⟨entry.function.newTuples, none, body.alwaysRequired⟩

/-- The state of a call behind its last entry, or that of a new call. -/
def stateOf (entry : NodeEntry) (body : LazyBody) (call : SuspendedCall) (t : Tuple) :
    Except Fault LazyState :=
  match call.state with
  | some state => .ok state
  | none => entry.function.startLazy body t

def completed (entry : NodeEntry) (state : LazyState) (tuples : Tuples) :
    Except Fault (List Value) :=
  (entry.function.finishLazy state tuples).result >>= fun tuples => entry.outputValues tuples.output

/-- Carries a lazy call on for a number of entries: the needed inputs are stored, and the entries are run. -/
def completeWithin (entry : NodeEntry) (body : LazyBody) (input : Nat → Except Fault Value)
    (call : SuspendedCall) (limit : Fault) (entries : Nat) : Except Fault (List Value) := do
  let t ← preset input call.needed call.tuples.input
  let state ← entry.stateOf body call t
  let (state, tuples) ← Eval.result <|
    entry.function.runLazy body (provide input) limit entries state { call.tuples with input := t }
  entry.completed state tuples

/-- Carries a lazy call to its end. -/
noncomputable def complete (entry : NodeEntry) (body : LazyBody) (input : Nat → Except Fault Value)
    (call : SuspendedCall) : Except Fault (List Value) :=
  unlimited (entry.completeWithin body input call)

/-- The number of entries after which a call is over. -/
noncomputable def entriesLeft (entry : NodeEntry) (body : LazyBody) (input : Nat → Except Fault Value)
    (call : SuspendedCall) : Nat :=
  sInf {entries | Enough (entry.completeWithin body input call) entries}

theorem callLazyWithin_eq (hb : body.IgnoresContext) (input : Nat → Except Fault Value) :
    entry.callLazyWithin body input = entry.completeWithin body input (entry.opening body) := by
  have hp (i : Nat) (t : Tuple) : (provide input i t).IgnoresContext := ignores_lift _
  funext limit entries
  unfold callLazyWithin completeWithin
  dsimp only [opening]
  congr 1
  funext t
  rw [Function.result_callLazyWithin hb hp, bind_assoc]
  congr 1
  funext state
  rw [bind_assoc]
  congr 1
  funext (s, t)
  unfold completed
  dsimp only
  cases (entry.function.finishLazy s t).result <;> rfl

theorem callLazy_eq_complete (hb : body.IgnoresContext) (input : Nat → Except Fault Value) :
    entry.callLazy body input = entry.complete body input (entry.opening body) := by
  rw [callLazy, callLazyWithin_eq hb, complete]

/-- The next entry of a call, if its needed inputs can be stored. -/
def nextOf (entry : NodeEntry) (body : LazyBody) (input : Nat → Except Fault Value)
    (call : SuspendedCall) : Except Fault (List Nat × LazyState × Tuples) :=
  preset input call.needed call.tuples.input >>= fun t =>
    entry.stateOf body call t >>= fun state =>
      (entry.function.nextLazy body state { call.tuples with input := t }).result

theorem completeWithin_succ (hb : body.IgnoresContext) (call : SuspendedCall) (limit : Fault)
    (entries : Nat) : entry.completeWithin body input call limit (entries + 1) =
      entry.nextOf body input call >>= fun (needed, state, tuples) =>
        if state.done then entry.completed state tuples
        else entry.completeWithin body input ⟨tuples, some state, needed⟩ limit entries := by
  have hp (i : Nat) (t : Tuple) : (provide input i t).IgnoresContext := ignores_lift _
  unfold completeWithin nextOf
  rw [bind_assoc]
  congr 1
  funext t
  rw [bind_assoc]
  congr 1
  funext state
  rw [Function.result_runLazy hb hp, bind_assoc]
  congr 1
  funext (needed, state, tuples)
  dsimp only
  split
  · rfl
  · rw [bind_assoc, result_provideAll]
    rfl

theorem completeWithin_zero (call : SuspendedCall) (limit : Fault) :
    entry.completeWithin body input call limit 0 = preset input call.needed call.tuples.input >>= fun t =>
      entry.stateOf body call t >>= fun _ => .error limit := rfl

section

variable {call : SuspendedCall} {needed : List Nat} {state : LazyState} {tuples : Tuples}

theorem completeWithin_of_error (hb : body.IgnoresContext) {fault : Fault}
    (hnext : entry.nextOf body input call = .error fault) (limit : Fault) {n : Nat} (hn : 0 < n) :
    entry.completeWithin body input call limit n = .error fault := by
  obtain ⟨n, rfl⟩ := Nat.exists_eq_add_one.mpr hn
  rw [completeWithin_succ hb, hnext, error_bind]

theorem completeWithin_of_done (hb : body.IgnoresContext)
    (hnext : entry.nextOf body input call = .ok (needed, state, tuples)) (hdone : state.done = true)
    (limit : Fault) {n : Nat} (hn : 0 < n) :
    entry.completeWithin body input call limit n = entry.completed state tuples := by
  obtain ⟨n, rfl⟩ := Nat.exists_eq_add_one.mpr hn
  rw [completeWithin_succ hb, hnext, ok_bind]
  exact if_pos hdone

theorem completeWithin_of_suspended (hb : body.IgnoresContext)
    (hnext : entry.nextOf body input call = .ok (needed, state, tuples)) (hdone : state.done = false)
    (limit : Fault) (n : Nat) : entry.completeWithin body input call limit (n + 1) =
      entry.completeWithin body input ⟨tuples, some state, needed⟩ limit n := by
  rw [completeWithin_succ hb, hnext, ok_bind]
  exact if_neg (by simp [hdone])

/-- A call that is suspended once more is over after one entry less. -/
theorem enough_succ_iff (hb : body.IgnoresContext)
    (hnext : entry.nextOf body input call = .ok (needed, state, tuples)) (hdone : state.done = false) (n : Nat) :
    Enough (entry.completeWithin body input call) (n + 1) ↔
      Enough (entry.completeWithin body input ⟨tuples, some state, needed⟩) n := by
  simp only [Enough, completeWithin_of_suspended hb hnext hdone]

theorem not_enough_zero {x : List Nat × LazyState × Tuples} (hnext : entry.nextOf body input call = .ok x) :
    ¬Enough (entry.completeWithin body input call) 0 := by
  intro h
  simp only [nextOf, bind_eq_ok_iff] at hnext
  obtain ⟨t, ht, state, hstate, -⟩ := hnext
  have hsame := h .counterOverflow .noEntry
  rw [completeWithin_zero, completeWithin_zero, ht, ok_bind, ok_bind, hstate, ok_bind, ok_bind] at hsame
  cases hsame

end

theorem steady_completeWithin (hb : body.IgnoresContext) (call : SuspendedCall) :
    Steady (entry.completeWithin body input call) := by
  intro n
  induction n generalizing call with
  | zero =>
      cases ht : preset input call.needed call.tuples.input with
      | error fault =>
          refine .inr ⟨.error fault, fun limit m _ => ?_⟩
          rw [completeWithin, ht, error_bind]
      | ok t =>
          cases hstate : entry.stateOf body call t with
          | error fault =>
              refine .inr ⟨.error fault, fun limit m _ => ?_⟩
              rw [completeWithin, ht, ok_bind, hstate, error_bind]
          | ok state =>
              refine .inl fun limit => ?_
              rw [completeWithin_zero, ht, ok_bind, hstate, ok_bind]
  | succ n ih =>
      cases hnext : entry.nextOf body input call with
      | error fault =>
          exact .inr ⟨_, fun limit m hm => completeWithin_of_error hb hnext limit (by omega)⟩
      | ok x =>
          obtain ⟨needed, state, tuples⟩ := x
          cases hdone : state.done with
          | true => exact .inr ⟨_, fun limit m hm => completeWithin_of_done hb hnext hdone limit (by omega)⟩
          | false =>
              simp only [completeWithin_of_suspended hb hnext hdone]
              refine (ih ⟨tuples, some state, needed⟩).imp_right fun ⟨outcome, hrun⟩ => ⟨outcome, fun limit m hm => ?_⟩
              obtain ⟨m, rfl⟩ := Nat.exists_eq_add_one.mpr (show 0 < m by omega)
              rw [completeWithin_of_suspended hb hnext hdone]
              exact hrun limit m (by omega)

/-- A lazy node gives exactly what its calls give that are over within some number of entries. -/
theorem callLazy_eq_ok_iff (hb : body.IgnoresContext) {values : List Value} :
    entry.callLazy body input = .ok values ↔
      ∃ limit entries, entry.callLazyWithin body input limit entries = .ok values := by
  rw [callLazy, callLazyWithin_eq hb]
  exact (steady_completeWithin hb _).unlimited_eq_ok_iff

theorem enough_suspended (hb : body.IgnoresContext) {call : SuspendedCall} {needed : List Nat}
    {state : LazyState} {tuples : Tuples} {n : Nat}
    (hnext : entry.nextOf body input call = .ok (needed, state, tuples)) (hdone : state.done = false)
    (h : Enough (entry.completeWithin body input call) n) :
    Enough (entry.completeWithin body input ⟨tuples, some state, needed⟩) n := by
  cases n with
  | zero => exact absurd h (not_enough_zero hnext)
  | succ n => exact (steady_completeWithin hb _).enough_of_le ((enough_succ_iff hb hnext hdone n).mp h) n.le_succ

theorem entriesLeft_lt (hb : body.IgnoresContext) {call : SuspendedCall} {needed : List Nat}
    {state : LazyState} {tuples : Tuples} {n : Nat}
    (hnext : entry.nextOf body input call = .ok (needed, state, tuples)) (hdone : state.done = false)
    (h : Enough (entry.completeWithin body input call) n) :
    entry.entriesLeft body input ⟨tuples, some state, needed⟩ < entry.entriesLeft body input call := by
  have hleft : Enough (entry.completeWithin body input call) (entry.entriesLeft body input call) :=
    Nat.sInf_mem (s := {k | Enough (entry.completeWithin body input call) k}) ⟨n, h⟩
  cases hk : entry.entriesLeft body input call with
  | zero => exact absurd (hk ▸ hleft) (not_enough_zero hnext)
  | succ k =>
      rw [hk] at hleft
      exact Nat.lt_succ_of_le (Nat.sInf_le ((enough_succ_iff hb hnext hdone k).mp hleft))

/-- If the body leaves the count alone, then its calls are over before the count is. -/
theorem enough_of_leavesCount (hb : body.IgnoresContext) (hcount : body.LeavesCount) {call : SuspendedCall}
    {n : Nat} (h : ∀ t s, entry.stateOf body call t = .ok s → UInt32.size ≤ s.entryCount.toNat + n) :
    Enough (entry.completeWithin body input call) n := by
  induction n generalizing call with
  | zero =>
      intro limit limit'
      rw [completeWithin_zero, completeWithin_zero]
      cases preset input call.needed call.tuples.input with
      | error fault => rfl
      | ok t =>
          cases hstate : entry.stateOf body call t with
          | error fault => rw [ok_bind, ok_bind, hstate, error_bind, error_bind]
          | ok s =>
              have hsize := h t s hstate
              have hlt := s.entryCount.toNat_lt_size
              omega
  | succ n ih =>
      cases hnext : entry.nextOf body input call with
      | error fault =>
          exact fun limit limit' => (completeWithin_of_error hb hnext limit n.succ_pos).trans
            (completeWithin_of_error hb hnext limit' n.succ_pos).symm
      | ok x =>
          obtain ⟨needed, state, tuples⟩ := x
          cases hdone : state.done with
          | true =>
              exact fun limit limit' => (completeWithin_of_done hb hnext hdone limit n.succ_pos).trans
                (completeWithin_of_done hb hnext hdone limit' n.succ_pos).symm
          | false =>
              refine (enough_succ_iff hb hnext hdone n).mpr (ih fun _ s' hs' => ?_)
              obtain rfl : state = s' := Except.ok.inj hs'
              simp only [nextOf, bind_eq_ok_iff] at hnext
              obtain ⟨t, -, s, hstate, hentry⟩ := hnext
              have hsize := h t s hstate
              have hcounted := Function.toNat_entryCount_of_result_nextLazy hb hcount hentry
              omega

theorem complete_eq (hb : body.IgnoresContext) (input : Nat → Except Fault Value)
    (call : SuspendedCall) : entry.complete body input call =
      entry.nextOf body input call >>= fun (needed, state, tuples) =>
        if state.done then entry.completed state tuples
        else entry.complete body input ⟨tuples, some state, needed⟩ := by
  have hs : Steady (entry.completeWithin body input call) := steady_completeWithin hb call
  -- The call is over after one entry, or the calls of both sides have the same end, if they have one.
  have hone {outcome : Except Fault (List Value)}
      (h : ∀ limit, entry.completeWithin body input call limit 1 = outcome) :
      entry.complete body input call = outcome := by
    rw [complete, ← hs.eq_unlimited (fun _ _ => (h _).trans (h _).symm) .counterOverflow, h]
  cases hnext : entry.nextOf body input call with
  | error fault => exact hone fun limit => completeWithin_of_error hb hnext limit Nat.one_pos
  | ok x =>
      obtain ⟨needed, state, tuples⟩ := x
      change _ = if state.done then _ else _
      cases hdone : state.done with
      | true => exact hone fun limit => completeWithin_of_done hb hnext hdone limit Nat.one_pos
      | false =>
          exact hs.unlimited_of_succ (steady_completeWithin hb _) (completeWithin_of_suspended hb hnext hdone)

end NodeEntry

end Nodeflow
