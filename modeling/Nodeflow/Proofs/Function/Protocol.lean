import Nodeflow.Proofs.Function.Entries
import Nodeflow.Proofs.Tuple
import Mathlib.Data.List.Chain

/-!
# The protocol of a lazy call

A lazy call is a list of entries. The first one finds a fresh state and the inputs that are always
required. Each further one finds the state that the entry before it has left, with one more entry
counted and nothing asked for, and the inputs that were asked for. The call ends with the first entry
that finishes it. This is so for every provider that stores what it is asked for and takes nothing
away, however often a body asks for an input, and whatever it does with its inputs in between.

A body is free to change the count of its entries, or to put another state in the place of its own.
Where it leaves the count alone, the entries are counted from one on, and the count of the call is
the number of its entries.
-/

namespace Nodeflow

open Eval

/-- An entry of a lazy body: the state and the tuples that it finds, and those that it leaves. -/
structure LazyEntry where
  state : LazyState
  tuples : Tuples
  after : LazyState
  left : Tuples

namespace LazyEntry

variable {f : Function} {body : LazyBody} {x y : LazyEntry} {c c' c'' : Context}

/-- The body of a function runs the entry, and leads from one context to another. -/
def Happens (f : Function) (body : LazyBody) (x : LazyEntry) (c c' : Context) : Prop :=
  runOn c (within (.text f.name) ((body.entry x.state).run x.tuples)) = (.ok (x.after, x.left), c')

theorem clean_of_nextEntry {s : LazyState} (h : s.nextEntry = .ok x.state) (hs : s.done = false) :
    x.state.done = false ∧ x.state.requested = [] := by
  obtain ⟨-, hx⟩ := LazyState.nextEntry_eq_ok_iff.mp h
  rw [← hx]
  exact ⟨hs, rfl⟩

theorem Happens.unique (h : x.Happens f body c c') (h' : y.Happens f body c c'')
    (hs : x.state = y.state) (ht : x.tuples = y.tuples) : x = y ∧ c' = c'' := by
  obtain ⟨state, tuples, after, left⟩ := x
  obtain ⟨state', tuples', after', left'⟩ := y
  obtain rfl : state = state' := hs
  obtain rfl : tuples = tuples' := ht
  have heq := h.symm.trans h'
  simp only [Prod.mk.injEq, Except.ok.injEq] at heq
  obtain ⟨⟨rfl, rfl⟩, rfl⟩ := heq
  exact ⟨rfl, rfl⟩

/-- The body runs the entry, somewhere. -/
def RunBy (body : LazyBody) (x : LazyEntry) : Prop :=
  ∃ c c', runOn c ((body.entry x.state).run x.tuples) = (.ok (x.after, x.left), c')

theorem Happens.runBy (h : x.Happens f body c c') : x.RunBy body := by
  obtain ⟨c₁, hrun, -⟩ := runOn_within_eq_ok_iff.mp h
  exact ⟨_, c₁, hrun⟩

/-- The first entry of a call: a fresh state, and the inputs that are always required. -/
structure Opens (body : LazyBody) (x : LazyEntry) : Prop where
  state : body.newState.nextEntry = .ok x.state
  required : ∀ i ∈ body.alwaysRequired, x.tuples.input.isFilled i = .ok true

/-- The entry after one that has not finished the call: what was asked for is there. -/
structure Precedes (x y : LazyEntry) : Prop where
  unfinished : x.after.done = false
  state : x.after.nextEntry = .ok y.state
  provided : ∀ i ∈ x.after.requested, y.tuples.input.isFilled i = .ok true

end LazyEntry

/-- The entries so far of a call. -/
structure Unfolds (body : LazyBody) (entries : List LazyEntry) : Prop where
  runBy : ∀ x ∈ entries, x.RunBy body
  opens : ∀ x, entries.head? = some x → x.Opens body
  precedes : entries.IsChain LazyEntry.Precedes

/-- The entries are counted from one on, and the count of the call is their number. -/
structure Counted (entries : List LazyEntry) (count : UInt32) : Prop where
  entry : ∀ k x, entries[k]? = some x → x.state.entryCount.toNat = k + 1
  count_eq : count.toNat = entries.length

/-- What holds of all entries of a call, and of its count and its tuples once it is closed. -/
structure Protocol (body : LazyBody) (entries : List LazyEntry) (count : UInt32)
    (closed : Tuples) : Prop where
  counted : body.LeavesCount → Counted entries count
  count_first : ∀ x, entries[0]? = some x → x.state.entryCount.toNat = 1
  count_next : ∀ k x y, entries[k]? = some x → entries[k + 1]? = some y →
    y.state.entryCount.toNat = x.after.entryCount.toNat + 1
  count_last : ∀ x, entries.getLast? = some x → x.after.entryCount = count
  clean : ∀ x ∈ entries, x.state.done = false ∧ x.state.requested = []
  scratch_first : ∀ x, entries[0]? = some x → x.state.scratch = Array.replicate body.scratchSize 0
  scratch_kept : ∀ k x y, entries[k]? = some x → entries[k + 1]? = some y →
    y.state.scratch = x.after.scratch
  required : ∀ x, entries[0]? = some x → ∀ i ∈ body.alwaysRequired, x.tuples.input.isFilled i = .ok true
  provided : ∀ k x y, entries[k]? = some x → entries[k + 1]? = some y → ∀ i ∈ x.after.requested,
    y.tuples.input.isFilled i = .ok true
  last : ∀ k x, entries[k]? = some x → (x.after.done = true ↔ k + 1 = entries.length)
  pos : entries ≠ []
  cleared : ∀ slot ∈ closed.input.slots.toList, slot.content = none
  complete : closed.output.allFilled = true

/-- A call is closed once it has finished and all its outputs are there; its inputs are destroyed. -/
theorem Function.runOn_finishLazy_eq_ok_iff {f : Function} {s : LazyState} {tuples closed : Tuples}
    {c c' : Context} : runOn c (f.finishLazy s tuples) = (.ok closed, c') ↔
      s.done = true ∧ tuples.output.allFilled = true ∧
        closed = { tuples with input := tuples.input.clear } ∧ c = c' := by
  unfold Function.finishLazy
  cases s.done with
  | false => simp
  | true => cases hfilled : tuples.output.allFilled <;> simp [hfilled, eq_comm]

namespace Unfolds

variable {f : Function} {body : LazyBody} {entries : List LazyEntry} {x y : LazyEntry} {k : Nat}

theorem first (hrun : x.RunBy body) (h : x.Opens body) : Unfolds body [x] :=
  ⟨by simpa using hrun, by rintro _ ⟨⟩; exact h, by simp⟩

theorem concat (h : Unfolds body entries) (hlast : entries.getLast? = some x) (hrun : y.RunBy body)
    (hxy : x.Precedes y) : Unfolds body (entries ++ [y]) := by
  have hne : entries ≠ [] := by
    rintro rfl
    cases hlast
  refine ⟨fun z hz => ?_, fun z hz => h.opens z ?_, h.precedes.append (by simp) ?_⟩
  · rcases List.mem_append.mp hz with hz | hz
    · exact h.runBy z hz
    · rwa [List.mem_singleton.mp hz]
  · rwa [List.head?_append_of_ne_nil _ hne] at hz
  · simp only [hlast, Option.mem_some_iff, List.head?_cons]
    rintro _ rfl _ rfl
    exact hxy

theorem precedes_at (h : Unfolds body entries) (hx : entries[k]? = some x)
    (hy : entries[k + 1]? = some y) : x.Precedes y := by
  obtain ⟨hlt, rfl⟩ := List.getElem?_eq_some_iff.mp hx
  obtain ⟨hlt', rfl⟩ := List.getElem?_eq_some_iff.mp hy
  exact List.isChain_iff_getElem.mp h.precedes k hlt'

theorem opens_at (h : Unfolds body entries) (hx : entries[0]? = some x) : x.Opens body :=
  h.opens x (by rw [List.head?_eq_getElem?]; exact hx)

theorem count_first (h : Unfolds body entries) (hx : entries[0]? = some x) :
    x.state.entryCount.toNat = 1 :=
  LazyState.toNat_entryCount_of_nextEntry (h.opens_at hx).state

theorem count_next (h : Unfolds body entries) (hx : entries[k]? = some x)
    (hy : entries[k + 1]? = some y) : y.state.entryCount.toNat = x.after.entryCount.toNat + 1 :=
  LazyState.toNat_entryCount_of_nextEntry (h.precedes_at hx hy).state

theorem entryCount_after (h : Unfolds body entries) (hb : body.LeavesCount) (hx : x ∈ entries) :
    x.after.entryCount = x.state.entryCount := by
  obtain ⟨c, c', hrun⟩ := h.runBy x hx
  exact hb _ _ _ _ _ _ hrun

theorem counted (h : Unfolds body entries) (hb : body.LeavesCount) (hx : entries[k]? = some x) :
    x.state.entryCount.toNat = k + 1 := by
  induction k generalizing x with
  | zero => exact h.count_first hx
  | succ k ih =>
      obtain ⟨hlt, -⟩ := List.getElem?_eq_some_iff.mp hx
      have hk := List.getElem?_eq_getElem (l := entries) (i := k) (by omega)
      rw [h.count_next hk hx, h.entryCount_after hb (List.mem_of_getElem? hk)]
      exact congrArg (· + 1) (ih hk)

theorem clean (h : Unfolds body entries) (hx : entries[k]? = some x) :
    x.state.done = false ∧ x.state.requested = [] := by
  cases k with
  | zero => exact LazyEntry.clean_of_nextEntry (h.opens_at hx).state rfl
  | succ k =>
      obtain ⟨hlt, -⟩ := List.getElem?_eq_some_iff.mp hx
      have hk := List.getElem?_eq_getElem (l := entries) (i := k) (by omega)
      have hxy := h.precedes_at hk hx
      exact LazyEntry.clean_of_nextEntry hxy.state hxy.unfinished

theorem done_iff (h : Unfolds body entries) {last : LazyEntry} (hlast : entries.getLast? = some last)
    (hdone : last.after.done = true) (hx : entries[k]? = some x) :
    x.after.done = true ↔ k + 1 = entries.length := by
  obtain ⟨hlt, -⟩ := List.getElem?_eq_some_iff.mp hx
  constructor
  · intro hd
    by_contra hk
    have hy := List.getElem?_eq_getElem (l := entries) (i := k + 1) (by omega)
    rw [(h.precedes_at hx hy).unfinished] at hd
    cases hd
  · intro hk
    rw [List.getLast?_eq_getElem?, ← hk, Nat.add_sub_cancel, hx] at hlast
    cases hlast
    exact hdone

theorem counted_last (h : Unfolds body entries) (hb : body.LeavesCount) {last : LazyEntry}
    (hlast : entries.getLast? = some last) : Counted entries last.after.entryCount := by
  refine ⟨fun k x => h.counted hb, ?_⟩
  have hpos : 0 < entries.length := by
    rw [List.length_pos_iff]
    rintro rfl
    cases hlast
  rw [h.entryCount_after hb (List.mem_of_getLast? hlast)]
  rw [List.getLast?_eq_getElem?] at hlast
  have hcount := h.counted hb hlast
  rwa [Nat.sub_add_cancel hpos] at hcount

theorem protocol (h : Unfolds body entries) {last : LazyEntry} (hlast : entries.getLast? = some last)
    (hdone : last.after.done = true) {tuples closed : Tuples} {c c' : Context}
    (hclose : runOn c (f.finishLazy last.after tuples) = (.ok closed, c')) :
    Protocol body entries last.after.entryCount closed := by
  obtain ⟨-, hcomplete, rfl, -⟩ := Function.runOn_finishLazy_eq_ok_iff.mp hclose
  refine ⟨fun hb => h.counted_last hb hlast, fun x => h.count_first, fun k x y => h.count_next, ?_, ?_,
    ?_, ?_, ?_, ?_, fun k x => h.done_iff hlast hdone, ?_, ?_, hcomplete⟩
  · intro x hx
    rw [Option.some.inj (hx.symm.trans hlast)]
  · intro x hx
    obtain ⟨k, hk⟩ := List.mem_iff_getElem?.mp hx
    exact h.clean hk
  · intro x hx
    obtain ⟨-, hs⟩ := LazyState.nextEntry_eq_ok_iff.mp (h.opens_at hx).state
    rw [← hs]
    rfl
  · intro k x y hx hy
    obtain ⟨-, hs⟩ := LazyState.nextEntry_eq_ok_iff.mp (h.precedes_at hx hy).state
    rw [← hs]
  · exact fun x hx => (h.opens_at hx).required
  · exact fun k x y hx hy => (h.precedes_at hx hy).provided
  · rintro rfl
    cases hlast
  · intro slot hslot
    rw [Tuple.clear, Array.toList_map] at hslot
    obtain ⟨_, -, rfl⟩ := List.mem_map.mp hslot
    rfl

end Unfolds

namespace Function

variable {f : Function} {body : LazyBody} {provide : Nat → Tuple → Eval Tuple} {s : LazyState}
  {tuples : Tuples} {c c' : Context}

theorem runOn_nextLazy_eq_ok_iff {needed : List Nat} {s' : LazyState} {t' : Tuples} :
    runOn c (f.nextLazy body s tuples) = (.ok (needed, s', t'), c') ↔
      ∃ x : LazyEntry, s.nextEntry = .ok x.state ∧ x.tuples = tuples ∧ x.Happens f body c c' ∧
        f.afterEntry x.after x.left = .ok (needed, s', t') := by
  simp only [nextLazy_eq, runOn_bind_eq_ok_iff, runOn_lift_eq_ok_iff, enter, LazyEntry.Happens]
  constructor
  · rintro ⟨s₁, _, ⟨hs, rfl⟩, ⟨after, left⟩, _, hentry, hafter, rfl⟩
    exact ⟨⟨s₁, tuples, after, left⟩, hs, rfl, hentry, hafter⟩
  · rintro ⟨x, hs, rfl, hentry, hafter⟩
    exact ⟨x.state, c, ⟨hs, rfl⟩, (x.after, x.left), c', hentry, hafter, rfl⟩

/-- The provider stores what it is asked for, and takes nothing away. -/
def Stores (provide : Nat → Tuple → Eval Tuple) : Prop :=
  ∀ i input input' c c', runOn c (provide i input) = (.ok input', c') →
    input'.isFilled i = .ok true ∧ ∀ j, input.isFilled j = .ok true → input'.isFilled j = .ok true

theorem Stores.provideAll (hp : Stores provide) {needed : List Nat} {input input' : Tuple}
    (h : runOn c (provideAll provide needed input) = (.ok input', c')) :
    (∀ i ∈ needed, input'.isFilled i = .ok true) ∧
      ∀ j, input.isFilled j = .ok true → input'.isFilled j = .ok true := by
  induction needed generalizing input c with
  | nil =>
      cases h
      exact ⟨by simp, fun _ hj => hj⟩
  | cons i needed ih =>
      rw [Function.provideAll, List.foldlM_cons, runOn_bind_eq_ok_iff] at h
      obtain ⟨input₁, c₁, hi, h⟩ := h
      obtain ⟨hneeded, hkept⟩ := ih h
      obtain ⟨hstored, hrest⟩ := hp _ _ _ _ _ hi
      exact ⟨List.forall_mem_cons.mpr ⟨hkept i hstored, hneeded⟩, fun j hj => hkept j (hrest j hj)⟩

/-- Runs entries one after another; in between the provider stores what is needed. -/
inductive Drives (f : Function) (body : LazyBody) (provide : Nat → Tuple → Eval Tuple) :
    LazyState → Tuples → Context → List LazyEntry → LazyState × Tuples → Context → Prop
  | last {s tuples x c c'} (hnext : s.nextEntry = .ok x.state) (htuples : x.tuples = tuples)
      (hrun : x.Happens f body c c') (hdone : x.after.done = true) :
      Drives f body provide s tuples c [x] (x.after, x.left) c'
  | next {s tuples x xs c c₁ c₂ c' needed input final} (hnext : s.nextEntry = .ok x.state)
      (htuples : x.tuples = tuples) (hrun : x.Happens f body c c₁) (hdone : x.after.done = false)
      (hasked : x.after.requested ≠ [])
      (hneeded : stillEmpty x.left.input x.after.requested = .ok needed)
      (hinput : runOn c₁ (provideAll provide needed x.left.input) = (.ok input, c₂))
      (hrest : Drives f body provide { x.after with requested := [] } { x.left with input } c₂ xs final c') :
      Drives f body provide s tuples c (x :: xs) final c'

theorem exists_drives {limit : Fault} {rounds : Nat} {final : LazyState × Tuples}
    (h : runOn c (f.runLazy body provide limit rounds s tuples) = (.ok final, c')) :
    ∃ entries, Drives f body provide s tuples c entries final c' := by
  induction rounds generalizing s tuples c with
  | zero => cases h
  | succ rounds ih =>
      rw [runLazy, runOn_bind_eq_ok_iff] at h
      obtain ⟨⟨needed, s', t'⟩, c₁, hnext, h⟩ := h
      obtain ⟨x, hs, rfl, hrun, hafter⟩ := runOn_nextLazy_eq_ok_iff.mp hnext
      obtain ⟨rfl, ⟨hdone, rfl, rfl⟩ | ⟨hdone, hasked, hneeded, rfl⟩⟩ := afterEntry_eq_ok_iff.mp hafter
      · dsimp only at h
        rw [if_pos hdone] at h
        cases h
        exact ⟨[x], .last hs rfl hrun hdone⟩
      · dsimp only at h
        rw [if_neg (by simp [hdone]), runOn_bind_eq_ok_iff] at h
        obtain ⟨input, c₂, hinput, h⟩ := h
        obtain ⟨entries, hrest⟩ := ih h
        exact ⟨x :: entries, .next hs rfl hrun hdone hasked hneeded hinput hrest⟩

theorem Drives.unique {entries others : List LazyEntry} {final final' : LazyState × Tuples}
    {c'' : Context} (h : Drives f body provide s tuples c entries final c')
    (h' : Drives f body provide s tuples c others final' c'') : entries = others := by
  -- both runs find the same state, so they take the same entry, and the rest is one by induction
  induction h generalizing others final' c'' with
  | last hnext htuples hrun hdone =>
      cases h' with
      | last hnext' htuples' hrun' =>
          have hs := Except.ok.inj (hnext.symm.trans hnext')
          rw [(hrun.unique hrun' hs (htuples.trans htuples'.symm)).1]
      | next hnext' htuples' hrun' hdone' =>
          have hs := Except.ok.inj (hnext.symm.trans hnext')
          rw [(hrun.unique hrun' hs (htuples.trans htuples'.symm)).1, hdone'] at hdone
          cases hdone
  | next hnext htuples hrun hdone _ hneeded hinput _ ih =>
      cases h' with
      | last hnext' htuples' hrun' hdone' =>
          have hs := Except.ok.inj (hnext.symm.trans hnext')
          rw [(hrun.unique hrun' hs (htuples.trans htuples'.symm)).1, hdone'] at hdone
          cases hdone
      | next hnext' htuples' hrun' _ _ hneeded' hinput' hrest' =>
          have hs := Except.ok.inj (hnext.symm.trans hnext')
          obtain ⟨rfl, rfl⟩ := hrun.unique hrun' hs (htuples.trans htuples'.symm)
          obtain rfl := Except.ok.inj (hneeded.symm.trans hneeded')
          have heq := hinput.symm.trans hinput'
          simp only [Prod.mk.injEq, Except.ok.injEq] at heq
          obtain ⟨rfl, rfl⟩ := heq
          rw [ih hrest']

theorem Drives.unfolds (hp : Stores provide) {entries : List LazyEntry} {final : LazyState × Tuples}
    (h : Drives f body provide s tuples c entries final c') :
    (∀ x ∈ entries, x.RunBy body) ∧ entries.IsChain LazyEntry.Precedes ∧
      (∃ x, entries.head? = some x ∧ s.nextEntry = .ok x.state ∧ x.tuples = tuples) ∧
      ∃ x, entries.getLast? = some x ∧ x.after.done = true ∧ final = (x.after, x.left) := by
  induction h with
  | @last s _ x _ _ hnext htuples hrun hdone =>
      exact ⟨by simpa using hrun.runBy, by simp, ⟨x, rfl, hnext, htuples⟩, x, rfl, hdone, rfl⟩
  | @next s _ x xs _ _ _ _ needed input _ hnext htuples hrun hdone _ hneeded hinput hrest ih =>
      obtain ⟨hruns, hchain, ⟨y, hy, hstate, hinput'⟩, z, hz, hzdone, hfinal⟩ := ih
      obtain ⟨hstored, hkept⟩ := hp.provideAll hinput
      have hxy : x.Precedes y := by
        refine ⟨hdone, hstate, fun i hi => ?_⟩
        rw [hinput']
        exact (isFilled_or_mem_stillEmpty hneeded hi).elim (hkept i) (hstored i)
      refine ⟨List.forall_mem_cons.mpr ⟨hrun.runBy, hruns⟩, List.isChain_cons.mpr ⟨?_, hchain⟩,
        ⟨x, rfl, hnext, htuples⟩, z, ?_, hzdone, hfinal⟩
      · simp only [hy, Option.mem_some_iff]
        rintro _ rfl
        exact hxy
      · rw [List.getLast?_cons, hz]
        rfl

/-- A whole call and its entries. -/
def CallsWith (f : Function) (body : LazyBody) (provide : Nat → Tuple → Eval Tuple) (tuples : Tuples)
    (c : Context) (entries : List LazyEntry) (count : UInt32) (closed : Tuples) (c' : Context) : Prop :=
  ∃ s s' left c₁, f.startLazy body tuples.input = .ok s ∧
    Drives f body provide s tuples c entries (s', left) c₁ ∧
      runOn c₁ (f.finishLazy s' left) = (.ok closed, c') ∧ s'.entryCount = count

theorem exists_callsWith {limit : Fault} {rounds : Nat} {count : UInt32} {closed : Tuples}
    (h : runOn c (f.callLazyWithin body provide limit rounds tuples) = (.ok (count, closed), c')) :
    ∃ entries, f.CallsWith body provide tuples c entries count closed c' := by
  simp only [callLazyWithin, runOn_bind_eq_ok_iff, runOn_lift_eq_ok_iff, runOn_pure_eq_ok_iff,
    Prod.mk.injEq] at h
  obtain ⟨s, _, ⟨hstart, rfl⟩, ⟨s', left⟩, c₁, hrun, _, _, hclose, ⟨hcount, rfl⟩, rfl⟩ := h
  obtain ⟨entries, hdrives⟩ := exists_drives hrun
  exact ⟨entries, s, s', left, c₁, hstart, hdrives, hclose, hcount⟩

theorem CallsWith.unique {entries others : List LazyEntry} {count count' : UInt32}
    {closed closed' : Tuples} {c'' : Context}
    (h : f.CallsWith body provide tuples c entries count closed c')
    (h' : f.CallsWith body provide tuples c others count' closed' c'') : entries = others := by
  obtain ⟨s, _, _, _, hstart, hdrives, -⟩ := h
  obtain ⟨s', _, _, _, hstart', hdrives', -⟩ := h'
  obtain rfl := Except.ok.inj (hstart.symm.trans hstart')
  exact hdrives.unique hdrives'

theorem isFilled_of_startLazy {input : Tuple} (h : f.startLazy body input = .ok s) {i : Nat}
    (hi : i ∈ body.alwaysRequired) : input.isFilled i = .ok true := by
  simp only [startLazy, bind_eq_ok_iff, pure_eq_ok_iff] at h
  obtain ⟨_, hall, -⟩ := h
  obtain ⟨b, hb, hfilled⟩ := bind_eq_ok_iff.mp (forM_eq_ok_iff.mp hall i hi)
  cases b with
  | false => cases hfilled
  | true => exact hb

theorem CallsWith.protocol (hp : Stores provide) {entries : List LazyEntry} {count : UInt32}
    {closed : Tuples} (h : f.CallsWith body provide tuples c entries count closed c') :
    Protocol body entries count closed := by
  obtain ⟨s, s', left, c₁, hstart, hdrives, hclose, rfl⟩ := h
  obtain rfl := startLazy_eq_ok hstart
  obtain ⟨hruns, hchain, ⟨x, hx, hstate, htuples⟩, y, hy, hdone, hfinal⟩ := hdrives.unfolds hp
  cases hfinal
  refine Unfolds.protocol ⟨hruns, fun z hz => ?_, hchain⟩ hy hdone hclose
  rw [hx] at hz
  cases hz
  exact ⟨hstate, fun i hi => htuples ▸ isFilled_of_startLazy hstart hi⟩

end Function

end Nodeflow
