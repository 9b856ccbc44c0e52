import Nodeflow.Proofs.Function.Protocol

/-!
# Asking for inputs

Behind an entry of a lazy call the provider is asked for what the entry needs, one input after
another. What an entry needs is settled once, when all of it is empty. So an input that an entry
requests twice is there when the provider is asked for it again, and an input that is requested once
is empty.
-/

namespace Nodeflow

open Eval

/-- No entry of the body requests an input twice. -/
def LazyBody.AsksOnce (body : LazyBody) : Prop :=
  ∀ (state : LazyState) (tuples : Tuples) (c : Context) (after : LazyState) (left : Tuples) (c' : Context),
    state.requested = [] → runOn c ((body.entry state).run tuples) = (.ok (after, left), c') →
      after.requested.Nodup

namespace Function

variable {f : Function} {body : LazyBody} {provide provide' : Nat → Tuple → Eval Tuple} {s s' : LazyState}
  {tuples tuples' : Tuples} {c c' c'' : Context} {earlier needed : List Nat} {i : Nat} {input input' : Tuple}

/-- The provider stores a value of the right type where it is asked to. -/
def StoresAt (provide : Nat → Tuple → Eval Tuple) : Prop :=
  ∀ i input input' c c', runOn c (provide i input) = (.ok input', c') → ∃ v old, input.put i v = .ok (old, input')

/--
The provider is asked for an input while entries are run: which ones it was asked for before, behind
the same entry, and the tuple and the context that it finds.
-/
inductive Asks (f : Function) (body : LazyBody) (provide : Nat → Tuple → Eval Tuple) :
    LazyState → Tuples → Context → List Nat → Nat → Tuple → Context → Prop
  | now {s s' tuples tuples' c c₁ c' earlier i later input}
      (hentry : runOn c (f.nextLazy body s tuples) = (.ok (earlier ++ i :: later, s', tuples'), c₁))
      (hdone : s'.done = false)
      (hearlier : runOn c₁ (provideAll provide earlier tuples'.input) = (.ok input, c')) :
      Asks f body provide s tuples c earlier i input c'
  | later {s s' tuples tuples' c c₁ c₂ c' needed provided earlier i input}
      (hentry : runOn c (f.nextLazy body s tuples) = (.ok (needed, s', tuples'), c₁)) (hdone : s'.done = false)
      (hneeded : runOn c₁ (provideAll provide needed tuples'.input) = (.ok provided, c₂))
      (hrest : Asks f body provide s' { tuples' with input := provided } c₂ earlier i input c') :
      Asks f body provide s tuples c earlier i input c'

/-! ## Moments of a run -/

theorem runOn_provideAll_cons (provide : Nat → Tuple → Eval Tuple) (i : Nat) (needed : List Nat)
    (input : Tuple) (c : Context) : runOn c (provideAll provide (i :: needed) input) =
      runOn c (provide i input >>= provideAll provide needed) := by
  rw [provideAll, List.foldlM_cons]
  rfl

theorem runOn_provideAll_congr (h : ∀ earlier i later input' c', needed = earlier ++ i :: later →
      runOn c (provideAll provide earlier input) = (.ok input', c') →
        runOn c' (provide i input') = runOn c' (provide' i input')) :
    runOn c (provideAll provide needed input) = runOn c (provideAll provide' needed input) := by
  induction needed generalizing input c with
  | nil => rfl
  | cons i needed ih =>
      rw [runOn_provideAll_cons, runOn_provideAll_cons, runOn_bind, runOn_bind, ← h [] i needed input c rfl rfl]
      rcases hfirst : runOn c (provide i input) with ⟨_ | input₁, c₁⟩
      · rfl
      · refine ih fun earlier j later input' c' hsplit hrun => ?_
        refine h (i :: earlier) j later input' c' (by rw [hsplit, List.cons_append]) ?_
        rw [runOn_provideAll_cons, runOn_bind, hfirst]
        exact hrun

/-- A run depends on its provider at the moments alone at which it is asked. -/
theorem runOn_runLazy_congr (h : ∀ earlier i input c', f.Asks body provide s tuples c earlier i input c' →
      runOn c' (provide i input) = runOn c' (provide' i input)) (limit : Fault) (rounds : Nat) :
    runOn c (f.runLazy body provide limit rounds s tuples) =
      runOn c (f.runLazy body provide' limit rounds s tuples) := by
  induction rounds generalizing s tuples c with
  | zero => rfl
  | succ rounds ih =>
      rw [runLazy, runLazy, runOn_bind, runOn_bind]
      rcases hentry : runOn c (f.nextLazy body s tuples) with ⟨_ | ⟨needed, s', tuples'⟩, c₁⟩
      · rfl
      · dsimp only
        by_cases hdone : s'.done = true
        · rw [if_pos hdone, if_pos hdone]
        · have hdone' := Bool.eq_false_iff.mpr hdone
          have hsame : runOn c₁ (provideAll provide needed tuples'.input) =
              runOn c₁ (provideAll provide' needed tuples'.input) :=
            runOn_provideAll_congr fun earlier i later input c' hsplit hrun =>
              h earlier i input c' (.now (hsplit ▸ hentry) hdone' hrun)
          rw [if_neg hdone, if_neg hdone, runOn_bind, runOn_bind, ← hsame]
          rcases hneeded : runOn c₁ (provideAll provide needed tuples'.input) with ⟨_ | provided, c₂⟩
          · rfl
          · exact ih fun earlier i input c' hasks => h earlier i input c' (.later hentry hdone' hneeded hasks)

theorem runOn_provideAll_append (provide : Nat → Tuple → Eval Tuple) (earlier later : List Nat)
    (input : Tuple) (c : Context) : runOn c (provideAll provide (earlier ++ later) input) =
      runOn c (provideAll provide earlier input >>= provideAll provide later) := by
  rw [provideAll, List.foldlM_append]
  rfl

/-- If the provider fails when it is asked, then so does each run that goes on until then. -/
theorem Asks.runOn_runLazy_eq_error (h : f.Asks body provide s tuples c earlier i input c') {fault : Fault}
    (hfault : runOn c' (provide i input) = (.error fault, c'')) : ∃ n, ∀ limit rounds,
      runOn c (f.runLazy body provide limit (rounds + n) s tuples) = (.error fault, c'') := by
  induction h with
  | now hentry hdone hearlier =>
      refine ⟨1, fun limit rounds => ?_⟩
      rw [runLazy, runOn_bind, hentry]
      dsimp only
      rw [if_neg (Bool.eq_false_iff.mp hdone), runOn_bind, runOn_provideAll_append, runOn_bind, hearlier]
      dsimp only
      rw [runOn_provideAll_cons, runOn_bind, hfault]
  | later hentry hdone hneeded _ ih =>
      obtain ⟨n, hrest⟩ := ih hfault
      refine ⟨n + 1, fun limit rounds => ?_⟩
      rw [← Nat.add_assoc, runLazy, runOn_bind, hentry]
      dsimp only
      rw [if_neg (Bool.eq_false_iff.mp hdone), runOn_bind, hneeded]
      exact hrest limit rounds

/-! ## What is asked for -/

/-- Behind an entry that has not finished the call, what is needed is empty and has been requested. -/
theorem exists_entry_of_nextLazy (h : runOn c (f.nextLazy body s tuples) = (.ok (needed, s', tuples'), c'))
    (hdone : s'.done = false) : ∃ x : LazyEntry, x.Happens f body c c' ∧ x.state.requested = [] ∧
      stillEmpty tuples'.input x.after.requested = .ok needed := by
  obtain ⟨x, hnext, -, hrun, hafter⟩ := runOn_nextLazy_eq_ok_iff.mp h
  obtain ⟨-, hstate⟩ := LazyState.nextEntry_eq_ok_iff.mp hnext
  obtain ⟨rfl, ⟨hx, -, rfl⟩ | ⟨-, -, hneeded, -⟩⟩ := afterEntry_eq_ok_iff.mp hafter
  · rw [hdone] at hx
    cases hx
  · exact ⟨x, hrun, hstate ▸ rfl, hneeded⟩

theorem StoresAt.isFilled_provideAll (hp : StoresAt provide) {needed : List Nat} {j : Nat} {b : Bool}
    (h : runOn c (provideAll provide needed input) = (.ok input', c')) (hj : input.isFilled j = .ok b) :
    input'.isFilled j = .ok (b || decide (j ∈ needed)) := by
  induction needed generalizing input c b with
  | nil =>
      cases h
      simpa using hj
  | cons i needed ih =>
      rw [runOn_provideAll_cons, runOn_bind_eq_ok_iff] at h
      obtain ⟨input₁, c₁, hi, h⟩ := h
      obtain ⟨v, old, hput⟩ := hp i input input₁ c c₁ hi
      by_cases hij : i = j
      · subst hij
        rw [ih h (Tuple.isFilled_put hput)]
        simp
      · rw [ih h ((Tuple.isFilled_put_of_ne hput hij).trans hj)]
        simp [Ne.symm hij]

/-- An input is there when it is asked for exactly if the same entry has had it asked for before. -/
theorem Asks.isFilled (hp : StoresAt provide) (h : f.Asks body provide s tuples c earlier i input c') :
    input.isFilled i = .ok (decide (i ∈ earlier)) := by
  induction h with
  | now hentry hdone hearlier =>
      obtain ⟨x, -, -, hneeded⟩ := exists_entry_of_nextLazy hentry hdone
      simpa using hp.isFilled_provideAll hearlier (isFilled_of_mem_stillEmpty hneeded (by simp))
  | later _ _ _ _ ih => exact ih

theorem Asks.not_mem_earlier (hb : body.AsksOnce) (h : f.Asks body provide s tuples c earlier i input c') :
    i ∉ earlier := by
  induction h with
  | now hentry hdone _ =>
      obtain ⟨x, hrun, hclean, hneeded⟩ := exists_entry_of_nextLazy hentry hdone
      obtain ⟨c, c', hentry⟩ := hrun.runBy
      have hnodup := (sublist_of_filterM hneeded).nodup (hb _ _ _ _ _ _ hclean hentry)
      exact fun hmem => (List.nodup_append.mp hnodup).2.2 _ hmem _ (by simp) rfl
  | later _ _ _ _ ih => exact ih

/--
Throughout a call the provider is asked for inputs that are empty, apart from those that the same
entry has had it asked for before. If no entry requests an input twice, what it stores replaces nothing.
-/
theorem asked_inputs_are_empty (hp : StoresAt provide)
    (h : f.Asks body provide s tuples c earlier i input c') :
    (input.isFilled i = .ok true ↔ i ∈ earlier) ∧
      (body.AsksOnce → input.isFilled i = .ok false ∧
        ∀ v old input', input.put i v = .ok (old, input') → old = none) := by
  have hfilled := h.isFilled hp
  refine ⟨by rw [hfilled]; simp, fun hb => ?_⟩
  rw [decide_eq_false (h.not_mem_earlier hb)] at hfilled
  refine ⟨hfilled, fun v old input' hput => ?_⟩
  obtain ⟨slot, hslot, -, rfl, -⟩ := Tuple.put_eq_ok_iff.mp hput
  obtain ⟨content, hcontent, hnone⟩ := Tuple.isFilled_eq_ok_iff.mp hfilled
  obtain ⟨slot', hslot', rfl⟩ := Tuple.value?_eq_ok_iff.mp hcontent
  rw [hslot] at hslot'
  cases hslot'
  simpa using hnone

/-! ## Requests at once -/

/-- A body that requests inputs in its first entry, and passes its first input on in the second. -/
def requestingBody (requests : List Nat) : LazyBody where
  alwaysRequired := []
  entry state := do
    if state.entryCount = 1 then return requests.foldl LazyState.request state
    BodyEval.put 0 (← BodyEval.take 0)
    return state.finish

def requesting : Function := ⟨"Requesting", #[⟨"v", .float⟩], #[⟨"r", .float⟩], []⟩

def provideOne (i : Nat) (input : Tuple) : Eval Tuple := do
  let (_, input) ← Eval.lift (input.put i (.float .one))
  return input

theorem storesAt_provideOne : StoresAt provideOne := by
  intro i input input' c c' h
  obtain ⟨⟨old, stored⟩, c₁, hlift, hrest⟩ := runOn_bind_eq_ok_iff.mp h
  obtain ⟨hput, -⟩ := runOn_lift_eq_ok_iff.mp hlift
  obtain ⟨rfl, -⟩ := runOn_pure_eq_ok_iff.mp hrest
  exact ⟨_, old, hput⟩

theorem requested_foldl_request (requests : List Nat) (s : LazyState) :
    (requests.foldl LazyState.request s).requested = s.requested ++ requests := by
  induction requests generalizing s with
  | nil => exact (List.append_nil _).symm
  | cons i requests ih => rw [List.foldl_cons, ih, LazyState.request, List.append_assoc, List.singleton_append]

theorem asksOnce_requestingBody {requests : List Nat} (h : requests.Nodup) : (requestingBody requests).AsksOnce := by
  intro state tuples c after left c' hclean hrun
  unfold requestingBody at hrun
  dsimp only at hrun
  split at hrun
  · rw [StateT.run_pure, runOn_pure_eq_ok_iff] at hrun
    obtain ⟨heq, -⟩ := hrun
    cases heq
    rwa [requested_foldl_request, hclean]
  · simp only [StateT.run_bind, runOn_bind_eq_ok_iff, StateT.run_pure, runOn_pure_eq_ok_iff] at hrun
    obtain ⟨_, _, -, _, _, -, hafter, -⟩ := hrun
    cases hafter
    rw [LazyState.finish, hclean]
    exact List.nodup_nil

theorem asked_inputs_are_empty_requesting : ∃ input c',
    requesting.Asks (requestingBody [0]) provideOne (requestingBody [0]).newState requesting.newTuples {} [] 0
        input c' ∧
      input.isFilled 0 = .ok false ∧ ∀ v old input', input.put 0 v = .ok (old, input') → old = none := by
  have hentry : runOn {} (requesting.nextLazy (requestingBody [0]) (requestingBody [0]).newState requesting.newTuples) =
      (.ok ([] ++ 0 :: [], ⟨1, false, #[], []⟩, requesting.newTuples), {}) := by
    with_unfolding_all rfl
  have hasks := Asks.now hentry rfl (rfl : runOn {} (provideAll provideOne [] requesting.newTuples.input) = _)
  have hempty := asked_inputs_are_empty storesAt_provideOne hasks
  exact ⟨_, _, hasks, hempty.2 (asksOnce_requestingBody (by simp))⟩

/-- An input that an entry requests twice is asked for again when it is there. -/
theorem not_all_asked_inputs_are_empty : ¬∀ (f : Function) (body : LazyBody) (provide : Nat → Tuple → Eval Tuple)
    (s : LazyState) (tuples : Tuples) (c : Context) (earlier : List Nat) (i : Nat) (input : Tuple) (c' : Context),
    StoresAt provide → f.startLazy body tuples.input = .ok s → f.Asks body provide s tuples c earlier i input c' →
      input.isFilled i = .ok false := by
  intro hall
  have hentry : runOn {} (requesting.nextLazy (requestingBody [0, 0]) (requestingBody [0, 0]).newState
      requesting.newTuples) = (.ok ([0] ++ 0 :: [], ⟨1, false, #[], []⟩, requesting.newTuples), {}) := by
    with_unfolding_all rfl
  have hfirst : runOn {} (provideAll provideOne [0] requesting.newTuples.input) =
      (.ok ⟨#[⟨⟨"v", .float⟩, some (.float .one)⟩]⟩, {}) := by
    with_unfolding_all rfl
  have hempty := hall _ _ _ _ _ _ _ _ _ _ storesAt_provideOne rfl (Asks.now hentry rfl hfirst)
  cases hempty

end Function

end Nodeflow
