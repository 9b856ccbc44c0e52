import Nodeflow.Proofs.Function.Context

/-!
# The entries of a lazy call

A lazy call is one entry after another; what is still to come of it depends on its state and its
tuples alone. If a body leaves the count of its entries alone, then each entry adds one to it.
-/

namespace Nodeflow

open Eval

namespace LazyState

variable {s s' : LazyState}

theorem nextEntry_eq_ok_iff : s.nextEntry = .ok s' ↔ s.entryCount.toNat + 1 < UInt32.size ∧
    { s with entryCount := s.entryCount + 1, requested := [] } = s' := by
  unfold nextEntry
  split <;> simp [*]

theorem toNat_entryCount_of_nextEntry (h : s.nextEntry = .ok s') :
    s'.entryCount.toNat = s.entryCount.toNat + 1 := by
  obtain ⟨hlt, rfl⟩ := nextEntry_eq_ok_iff.mp h
  rw [UInt32.toNat_add, Nat.mod_eq_of_lt (by simpa using hlt)]
  rfl

end LazyState

/-- No entry of the body changes the number of entries that have been counted. -/
def LazyBody.LeavesCount (body : LazyBody) : Prop :=
  ∀ (state : LazyState) (tuples : Tuples) (c : Context) (after : LazyState) (left : Tuples) (c' : Context),
    runOn c ((body.entry state).run tuples) = (.ok (after, left), c') → after.entryCount = state.entryCount

namespace Function

variable {f : Function} {body : LazyBody} {state state' : LazyState} {tuples tuples' : Tuples}
  {needed : List Nat}

/-- What the caller learns from the state and the tuples behind an entry. -/
def afterEntry (f : Function) (s : LazyState) (t : Tuples) :
    Except Fault (List Nat × LazyState × Tuples) :=
  if s.done then .ok ([], s, t)
  else if s.requested.isEmpty then .error (.noProgress f.name)
  else (stillEmpty t.input s.requested).map fun needed => (needed, { s with requested := [] }, t)

theorem afterEntry_eq_ok_iff : f.afterEntry state tuples = .ok (needed, state', tuples') ↔ tuples = tuples' ∧
    (state.done = true ∧ needed = [] ∧ state = state' ∨ state.done = false ∧ state.requested ≠ [] ∧
      stillEmpty tuples.input state.requested = .ok needed ∧ { state with requested := [] } = state') := by
  unfold afterEntry
  cases hdone : state.done with
  | true =>
      simp only [if_true, Except.ok.injEq, Prod.mk.injEq]
      constructor
      · rintro ⟨rfl, rfl, rfl⟩
        exact ⟨rfl, .inl ⟨trivial, rfl, rfl⟩⟩
      · rintro ⟨rfl, ⟨-, rfl, rfl⟩ | ⟨h, -⟩⟩
        · exact ⟨rfl, rfl, rfl⟩
        · cases h
  | false =>
      cases hrequested : state.requested with
      | nil => simp
      | cons i rest =>
          simp only [Bool.false_eq_true, if_false, List.isEmpty_cons, map_eq_ok_iff, Prod.mk.injEq]
          constructor
          · rintro ⟨empty, hempty, rfl, rfl, rfl⟩
            exact ⟨rfl, .inr ⟨trivial, by simp, hempty, rfl⟩⟩
          · rintro ⟨rfl, ⟨h, -⟩ | ⟨-, -, hempty, rfl⟩⟩
            · cases h
            · exact ⟨needed, hempty, rfl, rfl, rfl⟩

theorem nextLazy_eq (f : Function) (body : LazyBody) (state : LazyState) (tuples : Tuples) :
    f.nextLazy body state tuples = Eval.lift state.nextEntry >>= fun s =>
      f.enter body s tuples >>= fun (s, t) => Eval.lift (f.afterEntry s t) := by
  rw [nextLazy]
  congr 1
  funext s
  congr 1
  funext (s, t)
  unfold afterEntry
  dsimp only
  split
  · rfl
  · split
    · rfl
    · cases stillEmpty t.input s.requested <;> rfl

theorem result_nextLazy (hb : body.IgnoresContext) :
    (f.nextLazy body state tuples).result = state.nextEntry >>= fun s =>
      (f.enter body s tuples).result >>= fun (s, t) => f.afterEntry s t := by
  have hrest (x : LazyState × Tuples) : Eval.IgnoresContext (Eval.lift (f.afterEntry x.1 x.2)) :=
    ignores_lift _
  rw [nextLazy_eq, result_bind fun s => ignores_bind (ignores_enter hb s tuples) hrest, result_lift]
  congr 1
  funext s
  rw [result_bind hrest]
  simp only [result_lift]

theorem startLazy_eq_ok {input : Tuple} (h : f.startLazy body input = .ok state) :
    state = body.newState := by
  simp only [startLazy, bind_eq_ok_iff, pure_eq_ok_iff] at h
  obtain ⟨_, -, rfl⟩ := h
  rfl

theorem isFilled_of_mem_stillEmpty {input : Tuple} {inputs : List Nat}
    (h : stillEmpty input inputs = .ok needed) {i : Nat} (hi : i ∈ needed) :
    input.isFilled i = .ok false := by
  simpa using (of_mem_filterM h hi).2

theorem mem_of_mem_stillEmpty {input : Tuple} {inputs : List Nat}
    (h : stillEmpty input inputs = .ok needed) {i : Nat} (hi : i ∈ needed) : i ∈ inputs :=
  (of_mem_filterM h hi).1

theorem isFilled_or_mem_stillEmpty {input : Tuple} {inputs : List Nat}
    (h : stillEmpty input inputs = .ok needed) {i : Nat} (hi : i ∈ inputs) :
    input.isFilled i = .ok true ∨ i ∈ needed := by
  rcases mem_filterM_or h hi with hfilled | ⟨-, hmem⟩
  · exact .inl (by simpa using hfilled)
  · exact .inr hmem

/-- What an entry of a lazy call needs is empty. -/
theorem isFilled_of_result_nextLazy (hb : body.IgnoresContext)
    (h : (f.nextLazy body state tuples).result = .ok (needed, state', tuples')) :
    ∀ i ∈ needed, tuples'.input.isFilled i = .ok false := by
  rw [result_nextLazy hb] at h
  simp only [bind_eq_ok_iff, Prod.exists] at h
  obtain ⟨s, -, s₁, t₁, -, h⟩ := h
  obtain ⟨rfl, ⟨-, rfl, -⟩ | ⟨-, -, hempty, -⟩⟩ := afterEntry_eq_ok_iff.mp h
  · simp
  · exact fun i hi => isFilled_of_mem_stillEmpty hempty hi

/-- An entry that leaves the count alone has been counted once. -/
theorem toNat_entryCount_of_result_nextLazy (hb : body.IgnoresContext) (hcount : body.LeavesCount)
    (h : (f.nextLazy body state tuples).result = .ok (needed, state', tuples')) :
    state'.entryCount.toNat = state.entryCount.toNat + 1 := by
  rw [result_nextLazy hb] at h
  simp only [bind_eq_ok_iff, Prod.exists] at h
  obtain ⟨s, hs, after, left, henter, hafter⟩ := h
  obtain ⟨c₁, hrun, -⟩ := runOn_within_eq_ok_iff.mp (Prod.ext henter rfl)
  rw [← LazyState.toNat_entryCount_of_nextEntry hs, ← hcount _ _ _ _ _ _ hrun]
  obtain ⟨-, ⟨-, -, rfl⟩ | ⟨-, -, -, rfl⟩⟩ := afterEntry_eq_ok_iff.mp hafter
  · rfl
  · rfl

theorem result_runLazy (hb : body.IgnoresContext) {provide : Nat → Tuple → Eval Tuple}
    (hp : ∀ i input, (provide i input).IgnoresContext) (limit : Fault) (entries : Nat) :
    (f.runLazy body provide limit (entries + 1) state tuples).result =
      (f.nextLazy body state tuples).result >>= fun (needed, s, t) =>
        if s.done then .ok (s, t)
        else (provideAll provide needed t.input).result >>= fun input =>
          (f.runLazy body provide limit entries s { t with input }).result := by
  rw [runLazy, result_bind]
  · congr 1
    funext x
    obtain ⟨needed, s, t⟩ := x
    dsimp only
    split
    · rfl
    · exact result_bind fun input => ignores_runLazy hb hp limit entries s _
  · rintro ⟨needed, s, t⟩
    dsimp only
    split
    · exact ignores_pure _
    · exact ignores_bind (ignores_provideAll hp needed _) fun input =>
        ignores_runLazy hb hp limit entries s _

theorem result_callLazyWithin (hb : body.IgnoresContext) {provide : Nat → Tuple → Eval Tuple}
    (hp : ∀ i input, (provide i input).IgnoresContext) (limit : Fault) (entries : Nat) :
    (f.callLazyWithin body provide limit entries tuples).result =
      f.startLazy body tuples.input >>= fun state =>
        (f.runLazy body provide limit entries state tuples).result >>= fun (s, t) =>
          (f.finishLazy s t).result.map fun t => (s.entryCount, t) := by
  have hclose (x : LazyState × Tuples) :
      Eval.IgnoresContext (f.finishLazy x.1 x.2 >>= fun t => pure (x.1.entryCount, t)) :=
    ignores_bind (ignores_finishLazy x.1 x.2) fun _ => ignores_pure _
  rw [callLazyWithin,
    result_bind fun state => ignores_bind (ignores_runLazy hb hp limit entries state tuples) hclose,
    result_lift]
  congr 1
  funext state
  rw [result_bind hclose]
  congr 1
  funext (s, t)
  rw [result_bind fun _ => ignores_pure _]
  dsimp only
  cases (f.finishLazy s t).result <;> rfl

end Function

end Nodeflow
