import Nodeflow.Function.Compiled
import Nodeflow.Proofs.OrderedMap
import Nodeflow.Proofs.Program.Filling
import Nodeflow.Proofs.Program.Renaming

/-!
# Naming the registers of an inlined program

While a program is inlined, its registers are given names when they are met. Names that have been
given are kept, and the registers that had none at the start are numbered on in the order of their
first mention.
-/

namespace Nodeflow

namespace Renaming

variable {t t' : Renaming} {r : Register} {ms rest : List Register}

def name (t : Renaming) (r : Register) : Register := (t[r.number]?.getD none).getD r

def Names (t : Renaming) (r : Register) : Prop := ∃ c, t[r.number]? = some (some c)

def Keeps (t t' : Renaming) : Prop :=
  ∀ (i : Nat) (c : Register), t[i]? = some (some c) → t'[i]? = some (some c)

theorem name_eq {c : Register} (h : t[r.number]? = some (some c)) : t.name r = c := by
  simp [name, h]

theorem Keeps.name_eq (h : Keeps t t') (hr : t.Names r) : t'.name r = t.name r := by
  obtain ⟨c, hc⟩ := hr
  rw [Renaming.name_eq hc, Renaming.name_eq (h _ c hc)]

/-- The registers without a name, in the order of their first mention. -/
def unnamed (t : Renaming) (ms : List Register) : List Register :=
  (ms.filter fun r => t[r.number]? = some none).eraseDups

theorem mem_unnamed_iff : r ∈ t.unnamed ms ↔ r ∈ ms ∧ t[r.number]? = some none := by
  simp [unnamed]

theorem exists_unnamed_append (t : Renaming) (ms rest : List Register) :
    ∃ more, t.unnamed (ms ++ rest) = t.unnamed ms ++ more := by
  rw [unnamed, List.filter_append, List.eraseDups_append]
  exact ⟨_, rfl⟩

theorem unnamed_concat (t : Renaming) (ms : List Register) (r : Register) : t.unnamed (ms ++ [r]) =
    if t[r.number]? = some none ∧ r ∉ ms then t.unnamed ms ++ [r] else t.unnamed ms := by
  rw [unnamed, List.filter_append, List.eraseDups_append, ← unnamed]
  by_cases hr : t[r.number]? = some none
  · by_cases hmem : r ∈ ms <;> simp [List.removeAll, List.eraseDups_cons, hr, hmem]
  · simp [hr]

/-- Some registers have been met, and those of them without a name have been numbered on. -/
structure Numbered (t₀ : Renaming) (b₀ : ProgramBuilder) (ms : List Register) (t : Renaming)
    (b : ProgramBuilder) : Prop where
  size : t.size = t₀.size
  number : ∀ (k : Nat) (r : Register), (t₀.unnamed ms)[k]? = some r →
    t[r.number]? = some (some ⟨b₀.registerCount + k⟩)
  other : ∀ r : Register, r ∉ t₀.unnamed ms → t[r.number]? = t₀[r.number]?
  builder : b = { b₀ with registerCount := b₀.registerCount + (t₀.unnamed ms).length }
  lt_size : b₀.registerCount < UInt32.size → b.registerCount < UInt32.size

variable {t₀ : Renaming} {b₀ b b' : ProgramBuilder}

theorem Numbered.refl (t : Renaming) (b : ProgramBuilder) : Numbered t b [] t b :=
  ⟨rfl, fun _ _ h => by simp [unnamed] at h, fun _ _ => rfl, rfl, id⟩

namespace Numbered

theorem registerCount_eq (h : Numbered t₀ b₀ ms t b) :
    b.registerCount = b₀.registerCount + (t₀.unnamed ms).length := by
  rw [h.builder]

theorem cases (h : Numbered t₀ b₀ ms t b) (r : Register) :
    (∃ k, (t₀.unnamed ms)[k]? = some r ∧ t[r.number]? = some (some ⟨b₀.registerCount + k⟩)) ∨
      r ∉ t₀.unnamed ms ∧ t[r.number]? = t₀[r.number]? := by
  by_cases hr : r ∈ t₀.unnamed ms
  · obtain ⟨k, hk⟩ := List.mem_iff_getElem?.mp hr
    exact .inl ⟨k, hk, h.number k r hk⟩
  · exact .inr ⟨hr, h.other r hr⟩

theorem names (h : Numbered t₀ b₀ ms t b) (hr : r ∈ ms) (hlt : r.number < t₀.size) : t.Names r := by
  rcases h.cases r with ⟨k, -, hk⟩ | ⟨hout, heq⟩
  · exact ⟨_, hk⟩
  · rw [mem_unnamed_iff] at hout
    cases hc : t₀[r.number] with
    | none => exact absurd ⟨hr, by rw [Array.getElem?_eq_getElem hlt, hc]⟩ hout
    | some c => exact ⟨c, by rw [heq, Array.getElem?_eq_getElem hlt, hc]⟩

theorem keeps (h : Numbered t₀ b₀ ms t b) (h' : Numbered t₀ b₀ (ms ++ rest) t' b') : Keeps t t' := by
  obtain ⟨more, hmore⟩ := exists_unnamed_append t₀ ms rest
  intro i c hc
  rcases h.cases ⟨i⟩ with ⟨k, hk, hname⟩ | ⟨-, heq⟩
  · rw [← hc, hname]
    refine h'.number k ⟨i⟩ ?_
    rw [hmore, List.getElem?_append_left (List.getElem?_eq_some_iff.mp hk).1, hk]
  · rw [heq] at hc
    rw [h'.other ⟨i⟩ fun hmem => by simp [(mem_unnamed_iff.mp hmem).2] at hc]
    exact hc

theorem keeps_start (h : Numbered t₀ b₀ ms t b) : Keeps t₀ t :=
  (refl t₀ b₀).keeps h

/-- The next register that is met has a name already, or is given the next one. -/
theorem concat (h : Numbered t₀ b₀ ms t b) {r c : Register} (hc : t[r.number]? = some (some c)) :
    Numbered t₀ b₀ (ms ++ [r]) t b := by
  have hsame : t₀.unnamed (ms ++ [r]) = t₀.unnamed ms := by
    rw [unnamed_concat, if_neg]
    rintro ⟨hnone, hout⟩
    rw [h.other r fun hmem => hout (mem_unnamed_iff.mp hmem).1, hnone] at hc
    cases hc
  obtain ⟨hsize, hnumber, hother, hbuilder, hlt⟩ := h
  exact ⟨hsize, by rwa [hsame], by rwa [hsame], by rwa [hsame], hlt⟩

theorem unnamed_of_none (h : Numbered t₀ b₀ ms t b) {r : Register} (hr : t[r.number]? = some none) :
    t₀.unnamed (ms ++ [r]) = t₀.unnamed ms ++ [r] := by
  rcases h.cases r with ⟨k, -, hk⟩ | ⟨hout, heq⟩
  · rw [hr] at hk
    cases hk
  · rw [heq] at hr
    rw [unnamed_concat, if_pos ⟨hr, fun hmem => hout (mem_unnamed_iff.mpr ⟨hmem, hr⟩)⟩]

theorem concat_new (h : Numbered t₀ b₀ ms t b) {r : Register} (hr : t[r.number]? = some none)
    (hroom : b.registerCount + 1 < UInt32.size) :
    Numbered t₀ b₀ (ms ++ [r]) (t.setIfInBounds r.number (some ⟨b.registerCount⟩))
      { b with registerCount := b.registerCount + 1 } := by
  have hlt : r.number < t.size := (Array.getElem?_eq_some_iff.mp hr).1
  have hset (s : Register) : (t.setIfInBounds r.number (some ⟨b.registerCount⟩))[s.number]? =
      if s = r then some (some ⟨b.registerCount⟩) else t[s.number]? := by
    rw [Array.getElem?_setIfInBounds]
    by_cases hs : s = r
    · simp [hs, hlt]
    · rw [if_neg hs, if_neg]
      exact fun heq => hs (Register.eq_of_number heq.symm)
  have hout : r ∉ t₀.unnamed ms := fun hmem => by
    obtain ⟨k, hk⟩ := List.mem_iff_getElem?.mp hmem
    rw [h.number k r hk] at hr
    cases hr
  refine ⟨by simpa using h.size, fun k s hk => ?_, fun s hs => ?_, ?_, fun _ => hroom⟩
  · rw [h.unnamed_of_none hr, List.getElem?_append] at hk
    split at hk
    · rw [hset, if_neg]
      · exact h.number k s hk
      · rintro rfl
        exact hout (List.mem_of_getElem? hk)
    · obtain ⟨rfl, rfl⟩ : k = (t₀.unnamed ms).length ∧ r = s := by
        rw [List.getElem?_singleton] at hk
        split at hk
        · exact ⟨by omega, Option.some.inj hk⟩
        · cases hk
      rw [hset, if_pos rfl, h.registerCount_eq]
  · rw [h.unnamed_of_none hr, List.mem_append, not_or, List.mem_singleton] at hs
    rw [hset, if_neg hs.2, h.other s hs.1]
  · rw [h.unnamed_of_none hr, h.builder, List.length_append]
    rfl

end Numbered
end Renaming

open Renaming

namespace Program

variable {t₀ t : Renaming} {b₀ b : ProgramBuilder} {ms rest : List Register}

abbrev nameOn {α : Type} (action : StateT Renaming Emit α) (t : Renaming) (b : ProgramBuilder) :
    Except Fault ((α × Renaming) × ProgramBuilder) := (action.run t).run b

/-- Naming what has been met ends well, or the registers do not suffice for it. -/
def Named {α : Type} (t₀ : Renaming) (b₀ : ProgramBuilder) (ms : List Register)
    (outcome : Except Fault ((α × Renaming) × ProgramBuilder)) (post : Renaming → α → Prop) : Prop :=
  (outcome = .error .counterOverflow ∧ UInt32.size ≤ b₀.registerCount + (t₀.unnamed ms).length) ∨
    ∃ a t b, outcome = .ok ((a, t), b) ∧ Numbered t₀ b₀ ms t b ∧ post t a

theorem run_newRegister (b : ProgramBuilder) : Emit.newRegister.run b =
    if b.registerCount + 1 < UInt32.size then
      .ok (⟨b.registerCount⟩, { b with registerCount := b.registerCount + 1 })
    else .error .counterOverflow := by
  unfold Emit.newRegister
  by_cases hroom : b.registerCount + 1 < UInt32.size
  · rw [if_pos hroom]
    simp only [StateT.run_bind, StateT.run_get, pure_bind, hroom, if_true]
    rfl
  · rw [if_neg hroom]
    simp only [StateT.run_bind, StateT.run_get, pure_bind, hroom, if_false]
    rfl

theorem nameOn_renamed (r : Register) (t : Renaming) (b : ProgramBuilder) :
    nameOn (renamed r) t b = match t[r.number]? with
      | some (some c) => .ok ((c, t), b)
      | some none => if b.registerCount + 1 < UInt32.size then
          .ok ((⟨b.registerCount⟩, t.setIfInBounds r.number (some ⟨b.registerCount⟩)),
            { b with registerCount := b.registerCount + 1 })
          else .error .counterOverflow
      | none => .error (.outOfBounds t.size r.number) := by
  unfold nameOn renamed
  rcases hget : t[r.number]? with _ | _ | c
  · simp only [StateT.run_bind, StateT.run_get, pure_bind, hget]
    rfl
  · simp only [StateT.run_bind, StateT.run_get, pure_bind, hget, liftM, monadLift, MonadLift.monadLift,
      StateT.run_lift, run_newRegister]
    by_cases hroom : b.registerCount + 1 < UInt32.size
    · simp only [hroom, if_true]
      rfl
    · simp only [hroom, if_false]
      rfl
  · simp only [StateT.run_bind, StateT.run_get, pure_bind, hget]
    rfl

theorem named_renamed (h : Numbered t₀ b₀ ms t b) {r : Register} (hr : r.number < t₀.size) :
    Named t₀ b₀ (ms ++ [r]) (nameOn (renamed r) t b) fun t' c => t'.name r = c := by
  rw [nameOn_renamed]
  rw [← h.size] at hr
  cases hc : t[r.number] with
  | some c =>
      have hget : t[r.number]? = some (some c) := by rw [Array.getElem?_eq_getElem hr, hc]
      rw [hget]
      exact .inr ⟨c, t, b, rfl, h.concat hget, name_eq hget⟩
  | none =>
      have hget : t[r.number]? = some none := by rw [Array.getElem?_eq_getElem hr, hc]
      rw [hget]
      dsimp only
      split
      case isTrue hroom =>
          refine .inr ⟨⟨b.registerCount⟩, _, _, rfl, h.concat_new hget hroom, name_eq ?_⟩
          rw [Array.getElem?_setIfInBounds, if_pos rfl, if_pos hr]
      case isFalse hroom =>
          have hcount := h.registerCount_eq
          refine .inl ⟨rfl, ?_⟩
          rw [h.unnamed_of_none hget, List.length_append, List.length_singleton]
          omega

variable {α β : Type}

theorem Named.bind {x : StateT Renaming Emit α} {f : α → StateT Renaming Emit β}
    {post : Renaming → α → Prop} {post' : Renaming → β → Prop}
    (hx : Named t₀ b₀ ms (nameOn x t b) post)
    (hf : ∀ a t' b', Numbered t₀ b₀ ms t' b' → post t' a →
      Named t₀ b₀ (ms ++ rest) (nameOn (f a) t' b') post') :
    Named t₀ b₀ (ms ++ rest) (nameOn (x >>= f) t b) post' := by
  have hrun : nameOn (x >>= f) t b = nameOn x t b >>= fun ((a, t), b) => nameOn (f a) t b := by
    simp only [nameOn, StateT.run_bind]
  rw [hrun]
  rcases hx with ⟨hx, hroom⟩ | ⟨a, t', b', hx, hnumbered, hpost⟩
  · obtain ⟨more, hmore⟩ := exists_unnamed_append t₀ ms rest
    rw [hx]
    refine .inl ⟨rfl, ?_⟩
    rw [hmore, List.length_append]
    omega
  · rw [hx, ok_bind]
    exact hf a t' b' hnumbered hpost

theorem Named.map {x : StateT Renaming Emit α} {f : α → β} {post : Renaming → α → Prop}
    {post' : Renaming → β → Prop} (hx : Named t₀ b₀ ms (nameOn x t b) post)
    (hf : ∀ a t' b', Numbered t₀ b₀ ms t' b' → post t' a → post' t' (f a)) :
    Named t₀ b₀ ms (nameOn (x >>= fun a => Pure.pure (f a)) t b) post' := by
  rw [← List.append_nil ms]
  refine hx.bind fun a t' b' h hpost => ?_
  rw [List.append_nil]
  exact .inr ⟨f a, t', b', rfl, h, hf a t' b' h hpost⟩

theorem Named.pure {post : Renaming → α → Prop} (h : Numbered t₀ b₀ ms t b) {a : α} (ha : post t a) :
    Named t₀ b₀ ms (nameOn (Pure.pure a) t b) post :=
  .inr ⟨a, t, b, rfl, h, ha⟩

theorem named_registers (h : Numbered t₀ b₀ ms t b) {rs : List Register}
    (hrs : ∀ r ∈ rs, r.number < t₀.size) :
    Named t₀ b₀ (ms ++ rs) (nameOn (rs.mapM renamed) t b) fun t' cs => rs.map t'.name = cs := by
  induction rs generalizing ms t b with
  | nil => exact .pure (by rwa [List.append_nil]) rfl
  | cons r rs ih =>
      rw [List.mapM_cons, List.append_cons]
      refine (named_renamed h (hrs r (by simp))).bind fun c t' b' h' hc => ?_
      refine (ih h' fun s hs => hrs s (by simp [hs])).map fun cs t'' b'' h'' hcs => ?_
      have hkept := (h'.keeps h'').name_eq (h'.names (by simp) (hrs r (by simp)))
      rw [List.map_cons, hcs, hkept, hc]

theorem named_instructions (h : Numbered t₀ b₀ ms t b) {is : List Instruction}
    (his : ∀ i ∈ is, ∀ r ∈ i.registers, r.number < t₀.size) :
    Named t₀ b₀ (ms ++ is.flatMap Instruction.registers)
      (nameOn (is.mapM (Instruction.rename renamed)) t b) fun t' is' => is.map (Instruction.map t'.name) = is' := by
  induction is generalizing ms t b with
  | nil => exact .pure (by rwa [List.flatMap_nil, List.append_nil]) rfl
  | cons i is ih =>
      have hi := his i (by simp)
      have hfirst : Named t₀ b₀ (ms ++ i.registers) (nameOn (i.rename renamed) t b)
          fun t' i' => i.map t'.name = i' := by
        rw [Instruction.rename_eq, map_eq_pure_bind]
        exact (named_registers h hi).map fun cs t' b' _ hcs => by rw [Instruction.map, hcs]
      rw [List.mapM_cons, List.flatMap_cons, ← List.append_assoc]
      refine hfirst.bind fun i' t' b' h' hi' => ?_
      refine (ih h' fun j hj => his j (by simp [hj])).map fun is' t'' b'' h'' his' => ?_
      have hkept : i.map t''.name = i.map t'.name := Instruction.map_congr fun r hr =>
        (h'.keeps h'').name_eq (h'.names (by simp [hr]) (hi r hr))
      rw [List.map_cons, his', hkept, hi']

end Program
end Nodeflow
