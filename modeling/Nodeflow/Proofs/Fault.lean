import Nodeflow.Fault
import Mathlib.Data.List.Forall2

/-!
# Results that may be faults

A computation in steps gives a result exactly if each of its steps gives one.
-/

namespace Nodeflow

variable {ε α β γ : Type}

@[simp] theorem ok_bind (a : α) (f : α → Except ε β) : (Except.ok a >>= f) = f a := rfl

@[simp] theorem error_bind (e : ε) (f : α → Except ε β) :
    (Except.error e >>= f) = .error e := rfl

@[simp] theorem bind_eq_ok_iff {x : Except ε α} {f : α → Except ε β} {b : β} :
    x >>= f = .ok b ↔ ∃ a, x = .ok a ∧ f a = .ok b := by
  cases x with
  | error e => simp [bind, Except.bind]
  | ok a => simp [bind, Except.bind]

@[simp] theorem map_eq_ok_iff {x : Except ε α} {f : α → β} {b : β} :
    x.map f = .ok b ↔ ∃ a, x = .ok a ∧ f a = b := by
  cases x <;> simp [Except.map]

@[simp] theorem functor_map_eq_error_iff {x : Except ε α} {f : α → β} {e : ε} :
    f <$> x = .error e ↔ x = .error e := by
  cases x <;> simp [Functor.map, Except.map]

@[simp] theorem functor_map_eq_ok_iff {x : Except ε α} {f : α → β} {b : β} :
    f <$> x = .ok b ↔ ∃ a, x = .ok a ∧ f a = b := map_eq_ok_iff

@[simp] theorem pure_eq_ok_iff {a b : α} : (pure a : Except ε α) = .ok b ↔ a = b := by
  simp [pure, Except.pure]

theorem unless_throw_eq_ok_iff {p : Prop} [Decidable p] {e : ε} {f : PUnit → Except ε β}
    {x : Except ε β} {b : β} : (if p then throw e >>= f else x) = .ok b ↔ ¬p ∧ x = .ok b := by
  by_cases h : p <;> simp [h]

@[simp] theorem elementAt_eq_ok_iff {xs : Array α} {i : Nat} {x : α} :
    elementAt xs i = .ok x ↔ xs[i]? = some x := by
  unfold elementAt
  cases xs[i]? <;> simp

theorem mapM_eq_ok_iff {f : α → Except ε β} {xs : List α} {ys : List β} :
    xs.mapM f = .ok ys ↔ List.Forall₂ (fun x y => f x = .ok y) xs ys := by
  induction xs generalizing ys with
  | nil => cases ys <;> simp [pure, Except.pure]
  | cons x xs ih =>
      rw [List.mapM_cons]
      simp only [bind_eq_ok_iff, pure_eq_ok_iff, ih]
      constructor
      · rintro ⟨y, hy, ys', hys, rfl⟩
        exact .cons hy hys
      · intro h
        cases h with
        | cons hy hys => exact ⟨_, hy, _, hys, rfl⟩

/-- Steps that end in a fault have come as far as the first one that is a fault. -/
theorem exists_split_of_mapM_eq_error {f : α → Except ε β} {xs : List α} {e : ε}
    (h : xs.mapM f = .error e) : ∃ before x after, xs = before ++ x :: after ∧ f x = .error e ∧
      ∀ x' ∈ before, ∃ y, f x' = .ok y := by
  induction xs with
  | nil => cases h
  | cons x xs ih =>
      rw [List.mapM_cons] at h
      cases hx : f x with
      | error e' =>
          rw [hx] at h
          cases h
          exact ⟨[], x, xs, rfl, hx, by simp⟩
      | ok y =>
          rw [hx] at h
          cases hxs : xs.mapM f with
          | error e' =>
              rw [hxs] at h
              cases h
              obtain ⟨before, x', after, rfl, hx', hbefore⟩ := ih hxs
              exact ⟨x :: before, x', after, rfl, hx', List.forall_mem_cons.mpr ⟨⟨y, hx⟩, hbefore⟩⟩
          | ok ys =>
              rw [hxs] at h
              cases h

theorem exists_of_mapM_eq_error {f : α → Except ε β} {xs : List α} {e : ε}
    (h : xs.mapM f = .error e) : ∃ x ∈ xs, f x = .error e := by
  obtain ⟨before, x, after, rfl, hx, -⟩ := exists_split_of_mapM_eq_error h
  exact ⟨x, by simp, hx⟩

theorem forall₂_iff_getElem? {R : α → β → Prop} {xs : List α} {ys : List β} :
    List.Forall₂ R xs ys ↔ xs.length = ys.length ∧
      ∀ {i : Nat} {x : α}, xs[i]? = some x → ∃ y, ys[i]? = some y ∧ R x y := by
  constructor
  · intro h
    refine ⟨h.length_eq, ?_⟩
    induction h with
    | nil => simp
    | cons hxy _ ih =>
        intro i x hx
        cases i with
        | zero => exact ⟨_, rfl, by simpa [← Option.some.inj hx] using hxy⟩
        | succ i => exact ih hx
  · rintro ⟨hl, h⟩
    induction xs generalizing ys with
    | nil => simp [List.eq_nil_of_length_eq_zero hl.symm]
    | cons x xs ih =>
        cases ys with
        | nil => cases hl
        | cons y ys =>
            obtain ⟨y', hy, hxy⟩ := h (i := 0) rfl
            cases hy
            exact .cons hxy (ih (Nat.succ.inj hl) fun {i} _ hx => h (i := i + 1) hx)

theorem exists_forall₂ {R : α → β → Prop} {l : List α} (h : ∀ x ∈ l, ∃ y, R x y) :
    ∃ ys, List.Forall₂ R l ys := by
  induction l with
  | nil => exact ⟨[], .nil⟩
  | cons x l ih =>
      obtain ⟨y, hy⟩ := h x (by simp)
      obtain ⟨ys, hys⟩ := ih fun x' hx' => h x' (by simp [hx'])
      exact ⟨y :: ys, .cons hy hys⟩

theorem exists_of_forall₂ {R : α → β → Prop} {xs : List α} {ys : List β} (h : List.Forall₂ R xs ys) {x : α}
    (hx : x ∈ xs) : ∃ y, R x y := by
  obtain ⟨i, hi⟩ := List.mem_iff_getElem?.mp hx
  obtain ⟨y, -, hy⟩ := (forall₂_iff_getElem?.mp h).2 hi
  exact ⟨y, hy⟩

theorem forall₂_join {R : α → β → Prop} {S : α → γ → Prop} {T : β → γ → Prop} {xs : List α}
    {ys : List β} {zs : List γ} (hR : List.Forall₂ R xs ys) (hS : List.Forall₂ S xs zs)
    (h : ∀ x y z, R x y → S x z → T y z) : List.Forall₂ T ys zs := by
  induction hR generalizing zs with
  | nil =>
      cases hS
      exact .nil
  | cons hxy _ ih =>
      cases hS with
      | cons hxz hS => exact .cons (h _ _ _ hxy hxz) (ih hS)

theorem forM_eq_ok_iff {f : α → Except ε Unit} {xs : List α} :
    xs.forM f = .ok () ↔ ∀ x ∈ xs, f x = .ok () := by
  induction xs with
  | nil => simp [pure, Except.pure]
  | cons x xs ih =>
      rw [List.forM, bind_eq_ok_iff, List.forall_mem_cons, ← ih]
      exact ⟨fun ⟨_, hx, hxs⟩ => ⟨hx, hxs⟩, fun ⟨hx, hxs⟩ => ⟨_, hx, hxs⟩⟩

theorem filterAuxM_eq_ok {ε α : Type} {p : α → Except ε Bool} {xs acc ys : List α}
    (h : xs.filterAuxM p acc = .ok ys) {y : α} (hy : y ∈ ys) : y ∈ acc ∨ y ∈ xs ∧ p y = .ok true := by
  induction xs generalizing acc with
  | nil =>
      cases h
      exact .inl hy
  | cons x xs ih =>
      rw [List.filterAuxM, bind_eq_ok_iff] at h
      obtain ⟨b, hb, h⟩ := h
      rcases ih h with hacc | ⟨hxs, hp⟩
      · cases b with
        | false => exact .inl hacc
        | true => exact (List.mem_cons.mp hacc).elim (fun he => .inr ⟨by simp [he], he ▸ hb⟩) .inl
      · exact .inr ⟨List.mem_cons_of_mem _ hxs, hp⟩

theorem of_mem_filterM {ε α : Type} {p : α → Except ε Bool} {xs ys : List α}
    (h : xs.filterM p = .ok ys) {y : α} (hy : y ∈ ys) : y ∈ xs ∧ p y = .ok true := by
  simp only [List.filterM, bind_eq_ok_iff, pure_eq_ok_iff] at h
  obtain ⟨zs, hz, rfl⟩ := h
  exact (filterAuxM_eq_ok hz (List.mem_reverse.mp hy)).resolve_left (by simp)

theorem filterAuxM_keeps {ε α : Type} {p : α → Except ε Bool} {xs acc ys : List α}
    (h : xs.filterAuxM p acc = .ok ys) :
    (∀ x ∈ acc, x ∈ ys) ∧ ∀ x ∈ xs, p x = .ok false ∨ p x = .ok true ∧ x ∈ ys := by
  induction xs generalizing acc with
  | nil =>
      cases h
      exact ⟨fun x hx => hx, by simp⟩
  | cons x xs ih =>
      rw [List.filterAuxM, bind_eq_ok_iff] at h
      obtain ⟨b, hb, h⟩ := h
      obtain ⟨hacc, hxs⟩ := ih h
      cases b with
      | false => exact ⟨hacc, List.forall_mem_cons.mpr ⟨.inl hb, hxs⟩⟩
      | true =>
          rw [cond_true, List.forall_mem_cons] at hacc
          exact ⟨hacc.2, List.forall_mem_cons.mpr ⟨.inr ⟨hb, hacc.1⟩, hxs⟩⟩

theorem sublist_of_filterAuxM {ε α : Type} {p : α → Except ε Bool} {xs acc ys : List α}
    (h : xs.filterAuxM p acc = .ok ys) : ∃ kept : List α, kept.Sublist xs ∧ ys = kept.reverse ++ acc := by
  induction xs generalizing acc with
  | nil =>
      cases h
      exact ⟨[], .refl _, rfl⟩
  | cons x xs ih =>
      rw [List.filterAuxM, bind_eq_ok_iff] at h
      obtain ⟨b, -, h⟩ := h
      obtain ⟨kept, hkept, rfl⟩ := ih h
      cases b with
      | false => exact ⟨kept, hkept.cons x, rfl⟩
      | true => exact ⟨x :: kept, hkept.cons_cons x, by simp⟩

theorem sublist_of_filterM {ε α : Type} {p : α → Except ε Bool} {xs ys : List α}
    (h : xs.filterM p = .ok ys) : ys.Sublist xs := by
  simp only [List.filterM, bind_eq_ok_iff, pure_eq_ok_iff] at h
  obtain ⟨zs, hz, rfl⟩ := h
  obtain ⟨kept, hkept, rfl⟩ := sublist_of_filterAuxM hz
  simpa using hkept

theorem mem_filterM_or {ε α : Type} {p : α → Except ε Bool} {xs ys : List α}
    (h : xs.filterM p = .ok ys) {x : α} (hx : x ∈ xs) : p x = .ok false ∨ p x = .ok true ∧ x ∈ ys := by
  simp only [List.filterM, bind_eq_ok_iff, pure_eq_ok_iff] at h
  obtain ⟨zs, hz, rfl⟩ := h
  simpa using (filterAuxM_keeps hz).2 x hx

theorem array_mapM_eq_ok_iff {f : α → Except ε β} {xs : Array α} {ys : Array β} :
    xs.mapM f = .ok ys ↔ xs.size = ys.size ∧
      ∀ {i : Nat} {x : α}, xs[i]? = some x → ∃ y, ys[i]? = some y ∧ f x = .ok y := by
  rw [Array.mapM_eq_mapM_toList, functor_map_eq_ok_iff]
  constructor
  · rintro ⟨zs, hz, rfl⟩
    simpa using forall₂_iff_getElem?.mp (mapM_eq_ok_iff.mp hz)
  · rintro ⟨hs, h⟩
    refine ⟨ys.toList, mapM_eq_ok_iff.mpr (forall₂_iff_getElem?.mpr ⟨by simpa using hs, ?_⟩), by simp⟩
    intro i x hx
    simpa using h (by simpa using hx)

/-- Both results are the same, or both are faults. -/
def Agree (x y : Except ε α) : Prop := ∀ a, x = .ok a ↔ y = .ok a

namespace Agree

variable {x y z : Except ε α} {f g : α → Except ε β}

theorem refl (x : Except ε α) : Agree x x := fun _ => Iff.rfl

theorem symm (h : Agree x y) : Agree y x := fun a => (h a).symm

theorem bind (h : Agree x y) (hf : ∀ a, y = .ok a → Agree (f a) (g a)) : Agree (x >>= f) (y >>= g) := by
  intro b
  rw [bind_eq_ok_iff, bind_eq_ok_iff]
  refine exists_congr fun a => ?_
  rw [h a]
  exact and_congr_right fun ha => hf a ha b

theorem faults (hx : ∀ a, x ≠ .ok a) (hy : ∀ a, y ≠ .ok a) : Agree x y :=
  fun a => ⟨fun h => absurd h (hx a), fun h => absurd h (hy a)⟩

theorem toOption_eq (h : Agree x y) : x.toOption = y.toOption := by
  cases hy : y with
  | ok a => rw [(h a).mpr hy]
  | error e =>
      cases hx : x with
      | ok a => exact absurd ((h a).mp hx) (by simp [hy])
      | error e' => rfl

end Agree

end Nodeflow
