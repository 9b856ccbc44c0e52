import Nodeflow.Proofs.Program.Inlining

/-!
# Emitting functions

An emitter adds instructions that compute the outputs of its function into new registers, from the
registers it is given, and leave all registers alone that were there before.
-/

namespace Nodeflow

open Renaming Program

/-- The code between two states of a builder computes outputs from what is given. -/
structure Emission (b b' : ProgramBuilder) (given outs : List Register)
    (R : List Value → List Value → Prop) : Prop where
  count_le : b.registerCount ≤ b'.registerCount
  outs_lt : ∀ r ∈ outs, r.number < b'.registerCount
  code : ∃ is, b'.instructions.toList = b.instructions.toList ++ is ∧
    (∀ i ∈ is, ∀ r ∈ i.registers, r.number < b'.registerCount) ∧
    ∀ (regs : Registers) (args ys : List Value), b'.registerCount ≤ regs.size →
      regs.Hold given args → R args ys →
        ∃ after, Instruction.runAll is regs = .ok after ∧ after.size = regs.size ∧
          (∀ i < b.registerCount, after[i]? = regs[i]?) ∧ after.Hold outs ys

/-- At most some number of new registers has been handed out. -/
structure Allots (b b' : ProgramBuilder) (cost : Nat) : Prop where
  le : b.registerCount ≤ b'.registerCount
  le_add : b'.registerCount ≤ b.registerCount + cost
  lt_size : b.registerCount < UInt32.size → b'.registerCount < UInt32.size

/-- An emitter ends well with what is claimed, or at most `cost` new registers do not suffice. -/
def EmitsOr {α : Type} (b : ProgramBuilder) (cost : Nat) (outcome : Except Fault (α × ProgramBuilder))
    (post : α → ProgramBuilder → Prop) : Prop :=
  (outcome = .error .counterOverflow ∧ UInt32.size ≤ b.registerCount + cost) ∨
    ∃ a b', outcome = .ok (a, b') ∧ Allots b b' cost ∧ post a b'

namespace EmitsOr

variable {α β : Type} {b : ProgramBuilder} {cost cost' : Nat}

theorem bind {x : Emit α} {f : α → Emit β} {post : α → ProgramBuilder → Prop}
    {post' : β → ProgramBuilder → Prop} (hx : EmitsOr b cost (x.run b) post)
    (hf : ∀ a b', Allots b b' cost → post a b' → EmitsOr b' cost' ((f a).run b') post') :
    EmitsOr b (cost + cost') ((x >>= f).run b) post' := by
  rw [StateT.run_bind]
  rcases hx with ⟨hx, hroom⟩ | ⟨a, b', hx, hb, ha⟩
  · rw [hx]
    exact .inl ⟨rfl, by omega⟩
  · rw [hx, ok_bind]
    have hle := hb.le_add
    rcases hf a b' hb ha with ⟨hf, hroom⟩ | ⟨c, b'', hf, hb', hc⟩
    · exact .inl ⟨hf, by omega⟩
    · have hle' := hb'.le_add
      exact .inr ⟨c, b'', hf, ⟨Nat.le_trans hb.le hb'.le, by omega, hb'.lt_size ∘ hb.lt_size⟩, hc⟩

theorem pure {post : α → ProgramBuilder → Prop} {a : α} (h : post a b) :
    EmitsOr b 0 ((Pure.pure a : Emit α).run b) post :=
  .inr ⟨a, b, rfl, ⟨Nat.le_refl _, Nat.le_refl _, id⟩, h⟩

theorem mono {outcome : Except Fault (α × ProgramBuilder)} {post post' : α → ProgramBuilder → Prop}
    (h : EmitsOr b cost outcome post) (hcost : cost ≤ cost')
    (hpost : ∀ a b', Allots b b' cost → post a b' → post' a b') :
    EmitsOr b cost' outcome post' := by
  rcases h with ⟨h, hroom⟩ | ⟨a, b', h, hb, ha⟩
  · exact .inl ⟨h, by omega⟩
  · have hle := hb.le_add
    exact .inr ⟨a, b', h, ⟨hb.le, by omega, hb.lt_size⟩, hpost a b' hb ha⟩

end EmitsOr

/-- The emitter computes related outputs, with as many inputs, outputs and at most as many new registers. -/
def Emits (emitter : Emitter) (inputs outputs cost : Nat)
    (R : List Value → List Value → Prop) : Prop :=
  ∀ (b : ProgramBuilder) (given : List Register), given.length = inputs →
    (∀ r ∈ given, r.number < b.registerCount) →
      EmitsOr b cost ((emitter given).run b) fun outs b' =>
        outs.length = outputs ∧ Emission b b' given outs R

theorem Emits.mono {emitter : Emitter} {inputs outputs cost cost' : Nat} {R : List Value → List Value → Prop}
    (h : Emits emitter inputs outputs cost R) (hcost : cost ≤ cost') : Emits emitter inputs outputs cost' R :=
  fun b given hlen hgiven => (h b given hlen hgiven).mono hcost fun _ _ _ h => h

namespace Registers

variable {regs regs' : Registers} {rs : List Register} {vs : List Value}

theorem Hold.congr (h : regs.Hold rs vs)
    (hsame : ∀ r ∈ rs, regs'[r.number]? = regs[r.number]?) : regs'.Hold rs vs := by
  refine ((List.forall₂_and_left _ _).mpr ⟨hsame, h⟩).imp fun r v hr => ?_
  rw [Registers.read_eq_ok_iff, hr.1]
  exact Registers.read_eq_ok_iff.mp hr.2

theorem exists_writeAll (regs : Registers) (vs : List Value) (hnodup : rs.Nodup) (hlen : rs.length = vs.length)
    (hlt : ∀ r ∈ rs, r.number < regs.size) :
    ∃ after, regs.writeAll (rs.zip vs) = .ok after ∧ after.size = regs.size ∧ after.Hold rs vs ∧
      ∀ i, (∀ r ∈ rs, r.number ≠ i) → after[i]? = regs[i]? := by
  obtain ⟨after, hafter, hsize⟩ := exists_fill regs (rs.zip vs)
    fun pair hpair => hlt pair.1 (List.of_mem_zip hpair).1
  have hget := getElem?_fill hlen hafter
  refine ⟨after, hafter, hsize, forall₂_iff_getElem?.mpr ⟨hlen, fun {i r} hr => ?_⟩, fun i hi => ?_⟩
  · have hi : i < vs.length := hlen ▸ (List.getElem?_eq_some_iff.mp hr).1
    refine ⟨vs[i], List.getElem?_eq_getElem hi, read_eq_ok_iff.mpr ?_⟩
    rw [hget, if_pos (List.mem_of_getElem? hr), lastPosition_of_nodup hnodup hr, List.getElem?_eq_getElem hi]
    rfl
  · rw [hget ⟨i⟩, if_neg fun hmem => hi _ hmem rfl]

end Registers

namespace Program

variable {p : Program}

theorem Valid.length_locals_le (hv : p.Valid) : p.locals.length ≤ p.registerCount :=
  length_le_of_nodup p.nodup_locals fun _ hr => hv.mentions_lt (mem_locals_iff.mp hr).1

theorem emits_inlined (hv : p.Valid) (hk : p.KeepsInputs) :
    Emits p.inlined p.inputs.length p.outputs.length p.registerCount
      fun args ys => p.execute args = .ok ys := by
  intro b given hlen hgiven
  have hcost := hv.length_locals_le
  rcases run_inlined hv hlen b with ⟨hrun, hroom⟩ | ⟨hrun, hroom⟩
  · exact .inl ⟨hrun, by omega⟩
  · refine .inr ⟨_, _, hrun, ⟨Nat.le_add_right _ _, Nat.add_le_add_left hcost _, hroom⟩, by simp,
      Nat.le_add_right _ _, fun r hr => ?_,
      p.instructions.toList.map (Instruction.map (p.placing given b.registerCount)), by simp,
      fun i hi r hr => ?_, fun regs args ys hsize hhold hexec => ?_⟩
    · obtain ⟨r', hr', rfl⟩ := List.mem_map.mp hr
      exact placing_lt hlen hgiven (mem_mentions_of_output hr')
    · obtain ⟨i', hi', rfl⟩ := List.mem_map.mp hi
      rw [Instruction.registers_map] at hr
      obtain ⟨r', hr', rfl⟩ := List.mem_map.mp hr
      exact placing_lt hlen hgiven (mem_mentions_of_instruction hi' hr')
    · obtain ⟨after, hafter, hsize', hout, hframe⟩ := runs_inlined hlen hgiven (.inl hk) hsize hhold hexec
      exact ⟨after, hafter, hsize', hframe hk, hout⟩

end Program

theorem emitsOr_newRegister (b : ProgramBuilder) :
    EmitsOr b 1 (Emit.newRegister.run b) fun r b' =>
      r = ⟨b.registerCount⟩ ∧ b' = { b with registerCount := b.registerCount + 1 } := by
  rw [run_newRegister]
  split
  · rename_i hroom
    exact .inr ⟨_, _, rfl, ⟨Nat.le_succ _, Nat.le_refl _, fun _ => hroom⟩, rfl, rfl⟩
  · exact .inl ⟨rfl, by omega⟩

theorem emitsOr_mapM_newRegister {α : Type} (b : ProgramBuilder) (xs : List α) :
    EmitsOr b xs.length ((xs.mapM fun _ => Emit.newRegister).run b) fun outs b' =>
      outs = registersFrom b.registerCount xs.length ∧
        b' = { b with registerCount := b.registerCount + xs.length } := by
  induction xs generalizing b with
  | nil => exact .pure ⟨rfl, rfl⟩
  | cons x xs ih =>
      rw [List.mapM_cons]
      refine ((emitsOr_newRegister b).bind fun r b₁ _ h₁ => (ih b₁).bind fun rs b₂ _ h₂ =>
        .pure (a := r :: rs) ⟨?_, ?_⟩).mono (by simp; omega) fun _ _ _ h => h
      · obtain ⟨rfl, rfl⟩ := h₁
        rw [h₂.1, registersFrom, registersFrom, List.length_cons, List.range'_succ, List.map_cons]
      · obtain ⟨rfl, rfl⟩ := h₁
        rw [h₂.2]
        simp only [List.length_cons, ProgramBuilder.mk.injEq, true_and]
        omega

theorem emitsOr_newRegisters (b : ProgramBuilder) (count : Nat) :
    EmitsOr b count ((Emit.newRegisters count).run b) fun outs b' =>
      outs = registersFrom b.registerCount count ∧
        b' = { b with registerCount := b.registerCount + count } := by
  simpa [Emit.newRegisters] using emitsOr_mapM_newRegister b (List.range count)

namespace Function

variable {f : Function}

/-- The length checks of a function pass for an emitter that keeps to the function's signature. -/
theorem emits_emit {emitter : Emitter} {cost : Nat} {R : List Value → List Value → Prop}
    (h : Emits emitter f.inputs.size f.outputs.size cost R) :
    Emits (f.emit emitter) f.inputs.size f.outputs.size cost R := by
  intro b given hlen hgiven
  have hemit : f.emit emitter given = emitter given >>= fun outputs => do
      if outputs.length ≠ f.outputs.size then
        throw (.outputRegisters f.name outputs.length f.outputs.size)
      return outputs := by
    unfold emit
    rw [if_neg (by simpa using hlen)]
  rw [hemit]
  have hcheck : EmitsOr b (cost + 0) ((emitter given >>= fun outputs => do
      if outputs.length ≠ f.outputs.size then
        throw (.outputRegisters f.name outputs.length f.outputs.size)
      return outputs).run b) fun outs b' =>
        outs.length = f.outputs.size ∧ Emission b b' given outs R := by
    refine (h b given hlen hgiven).bind fun outs b' _ hout => ?_
    rw [if_neg (by simpa using hout.1)]
    exact .pure hout
  exact hcheck

end Function
end Nodeflow
