import Nodeflow.Proofs.Builtin.Operation
import Nodeflow.Proofs.Program.Emission

/-!
# Emitting builtin functions

A builtin function is emitted as one instruction, which writes its results into new registers.
-/

namespace Nodeflow

open Renaming

variable {b : ProgramBuilder} {given : List Register}

theorem emission_push {i : Instruction} {count : Nat} {R : List Value → List Value → Prop}
    (hdst : i.destinations = registersFrom b.registerCount count) (hops : ∀ r ∈ i.operands, r ∈ given)
    (hgiven : ∀ r ∈ given, r.number < b.registerCount)
    (hvalues : ∀ (regs : Registers) args ys, regs.Hold given args → R args ys →
      ys.length = count ∧ i.values regs.read = .ok ys) :
    Emission b ⟨b.instructions.push i, b.registerCount + count⟩ given
      (registersFrom b.registerCount count) R := by
  have hnew : ∀ r ∈ registersFrom b.registerCount count, r.number < b.registerCount + count :=
    fun r hr => (mem_registersFrom_iff.mp hr).2
  refine ⟨Nat.le_add_right _ _, hnew, [i], by simp, fun j hj r hr => ?_, fun regs args ys hsize hhold hR => ?_⟩
  · rw [List.mem_singleton.mp hj, Instruction.registers, List.mem_append] at hr
    rcases hr with hr | hr
    · exact hnew r (hdst ▸ hr)
    · exact Nat.lt_of_lt_of_le (hgiven r (hops r hr)) (Nat.le_add_right _ _)
  · obtain ⟨hlen, hys⟩ := hvalues regs args ys hhold hR
    obtain ⟨after, hwrite, hsize', hhold', hframe⟩ := Registers.exists_writeAll regs ys
      (nodup_registersFrom b.registerCount count) (by simp [hlen]) fun r hr =>
        Nat.lt_of_lt_of_le (hnew r hr) hsize
    refine ⟨after, ?_, hsize', fun j hj => hframe j fun r hr => ?_, hhold'⟩
    · rw [Instruction.runAll_cons, Instruction.step_eq, hys, ok_bind, hdst, hwrite]
      rfl
    · exact Nat.ne_of_gt (Nat.lt_of_lt_of_le hj (mem_registersFrom_iff.mp hr).1)

theorem emitsOr_emit (b : ProgramBuilder) (i : Instruction) :
    EmitsOr b 0 ((Emit.emit i).run b) fun _ b' => b' = ⟨b.instructions.push i, b.registerCount⟩ :=
  .inr ⟨_, _, rfl, ⟨Nat.le_refl _, Nat.le_refl _, id⟩, rfl⟩

theorem emitsOr_instruction (b : ProgramBuilder) (f : Register → Instruction) :
    EmitsOr b 1 (((do let dst ← Emit.newRegister; Emit.emit (f dst); return [dst]) : Emit (List Register)).run b)
      fun outs b' => outs = [⟨b.registerCount⟩] ∧
        b' = ⟨b.instructions.push (f ⟨b.registerCount⟩), b.registerCount + 1⟩ := by
  refine ((emitsOr_newRegister b).bind fun dst b₁ _ h₁ => (emitsOr_emit b₁ (f dst)).bind fun _ b₂ _ h₂ =>
    .pure ?_).mono (Nat.le_refl _) fun _ _ _ h => h
  obtain ⟨rfl, rfl⟩ := h₁
  exact ⟨rfl, h₂⟩

namespace Operation

variable {regs : Registers} {xs ys : List Value}

open Instruction in
theorem values_binary {name : String} {op : BinaryOp} {dst r s : Register} (hhold : regs.Hold [r, s] xs)
    (h : (arithmetic name op).apply xs = some ys) :
    ys.length = 1 ∧ (binary op dst r s).values regs.read = .ok ys := by
  rcases hhold with _ | ⟨hr, _ | ⟨hs, _ | _⟩⟩
  rcases typed_of_apply h with _ | ⟨ha, _ | ⟨hb, _ | _⟩⟩
  obtain ⟨a, rfl⟩ := Value.exists_float ha
  obtain ⟨b, rfl⟩ := Value.exists_float hb
  cases h
  simp [values, readFloat, hr, hs]

open Instruction in
theorem values_combineVector {dst r s t : Register} (hhold : regs.Hold [r, s, t] xs)
    (h : combineVector.apply xs = some ys) :
    ys.length = 1 ∧ (Instruction.combineVector dst r s t).values regs.read = .ok ys := by
  rcases hhold with _ | ⟨hr, _ | ⟨hs, _ | ⟨ht, _ | _⟩⟩⟩
  rcases typed_of_apply h with _ | ⟨hx, _ | ⟨hy, _ | ⟨hz, _ | _⟩⟩⟩
  obtain ⟨x, rfl⟩ := Value.exists_float hx
  obtain ⟨y, rfl⟩ := Value.exists_float hy
  obtain ⟨z, rfl⟩ := Value.exists_float hz
  cases h
  simp [values, readFloat, hr, hs, ht]

theorem values_separateVector {dx dy dz r : Register} (hhold : regs.Hold [r] xs)
    (h : separateVector.apply xs = some ys) :
    ys.length = 3 ∧ (Instruction.separateVector dx dy dz r).values regs.read = .ok ys := by
  rcases hhold with _ | ⟨hr, _ | _⟩
  rcases typed_of_apply h with _ | ⟨hv, _ | _⟩
  obtain ⟨x, y, z, rfl⟩ := Value.exists_vector3 hv
  cases h
  simp [Instruction.values, hr]

theorem values_select {dst r s t : Register} (hhold : regs.Hold [r, s, t] xs)
    (h : switch.apply xs = some ys) :
    ys.length = 1 ∧ (Instruction.select dst r s t).values regs.read = .ok ys := by
  rcases hhold with _ | ⟨hr, _ | ⟨hs, _ | ⟨ht, _ | _⟩⟩⟩
  rcases typed_of_apply h with _ | ⟨hc, _ | ⟨ha, _ | ⟨hb, _ | _⟩⟩⟩
  obtain ⟨c, rfl⟩ := Value.exists_bool hc
  obtain ⟨a, rfl⟩ := Value.exists_float ha
  obtain ⟨b, rfl⟩ := Value.exists_float hb
  cases h
  cases c <;> simp [Instruction.values, hr, hs, ht]

theorem values_listSum {dst r : Register} (hhold : regs.Hold [r] xs) (h : listSum.apply xs = some ys) :
    ys.length = 1 ∧ (Instruction.listSum dst r).values regs.read = .ok ys := by
  rcases hhold with _ | ⟨hr, _ | _⟩
  rcases typed_of_apply h with _ | ⟨hl, _ | _⟩
  obtain ⟨l, rfl⟩ := Value.exists_floatList hl
  cases h
  simp [Instruction.values, hr]

open Instruction in
theorem values_floatRange {dst r s t : Register} (hhold : regs.Hold [r, s, t] xs)
    (h : range.apply xs = some ys) :
    ys.length = 1 ∧ (Instruction.floatRange dst r s t).values regs.read = .ok ys := by
  rcases hhold with _ | ⟨hr, _ | ⟨hs, _ | ⟨ht, _ | _⟩⟩⟩
  rcases typed_of_apply h with _ | ⟨hn, _ | ⟨ha, _ | ⟨hd, _ | _⟩⟩⟩
  obtain ⟨n, rfl⟩ := Value.exists_int hn
  obtain ⟨a, rfl⟩ := Value.exists_float ha
  obtain ⟨d, rfl⟩ := Value.exists_float hd
  cases h
  simp [values, readInt, readFloat, hr, hs, ht]

theorem values_intToFloat {dst r : Register} (hhold : regs.Hold [r] xs) (h : intToFloat.apply xs = some ys) :
    ys.length = 1 ∧ (Instruction.intToFloat dst r).values regs.read = .ok ys := by
  rcases hhold with _ | ⟨hr, _ | _⟩
  rcases typed_of_apply h with _ | ⟨hn, _ | _⟩
  obtain ⟨n, rfl⟩ := Value.exists_int hn
  cases h
  simp [Instruction.values, Instruction.readInt, hr]

theorem values_floatToInt {dst r : Register} (hhold : regs.Hold [r] xs) (h : floatToInt.apply xs = some ys) :
    ys.length = 1 ∧ (Instruction.floatToInt dst r).values regs.read = .ok ys := by
  rcases hhold with _ | ⟨hr, _ | _⟩
  rcases typed_of_apply h with _ | ⟨hx, _ | _⟩
  obtain ⟨x, rfl⟩ := Value.exists_float hx
  cases h
  simp [Instruction.values, Instruction.readFloat, hr]

/-! ## Programs of operations -/

/-- An instruction performs an operation on what is given, and writes the results to new registers. -/
structure DoneBy (op : Operation) (b : ProgramBuilder) (given : List Register) (i : Instruction) : Prop where
  destinations : i.destinations = registersFrom b.registerCount op.function.outputs.size
  operands : ∀ r ∈ i.operands, r ∈ given
  values : ∀ (regs : Registers) xs ys, regs.Hold given xs → op.apply xs = some ys →
    ys.length = op.function.outputs.size ∧ i.values regs.read = .ok ys

/-- The operation is emitted as one instruction, or its registers do not suffice. -/
def EmitsOne (op : Operation) (b : ProgramBuilder) (given : List Register)
    (outcome : Except Fault (List Register × ProgramBuilder)) : Prop :=
  EmitsOr b op.function.outputs.size outcome fun outs b' => ∃ i, op.DoneBy b given i ∧ outs = i.destinations ∧
    b' = ⟨b.instructions.push i, b.registerCount + op.function.outputs.size⟩

theorem emitsOne_single {op : Operation} {f : Register → Instruction} (hcount : op.function.outputs.size = 1)
    (hdst : ∀ r, (f r).destinations = [r]) (hops : ∀ dst, ∀ r ∈ (f dst).operands, r ∈ given)
    (hvalues : ∀ dst (regs : Registers) args ys, regs.Hold given args → op.apply args = some ys →
      ys.length = 1 ∧ (f dst).values regs.read = .ok ys) :
    op.EmitsOne b given
      (((do let dst ← Emit.newRegister; Emit.emit (f dst); return [dst]) : Emit (List Register)).run b) := by
  refine (emitsOr_instruction b f).mono (Nat.le_of_eq hcount.symm) fun outs b' _ h => ?_
  rw [h.1, h.2, hcount]
  refine ⟨f ⟨b.registerCount⟩, ⟨?_, hops _, ?_⟩, (hdst _).symm, rfl⟩
  · rw [hdst, hcount]
    rfl
  · rw [hcount]
    exact hvalues _

theorem emitsOne_separateVector (b : ProgramBuilder) (r : Register) :
    separateVector.EmitsOne b [r] (((do
        let x ← Emit.newRegister
        let y ← Emit.newRegister
        let z ← Emit.newRegister
        Emit.emit (.separateVector x y z r)
        return [x, y, z]) : Emit (List Register)).run b) := by
  refine ((emitsOr_newRegister b).bind fun x b₁ _ h₁ => (emitsOr_newRegister b₁).bind fun y b₂ _ h₂ =>
    (emitsOr_newRegister b₂).bind fun z b₃ _ h₃ => (emitsOr_emit b₃ _).bind fun _ b₄ _ h₄ =>
      .pure ?_).mono (Nat.le_refl 3) fun _ _ _ h => h
  obtain ⟨rfl, rfl⟩ := h₁
  obtain ⟨rfl, rfl⟩ := h₂
  obtain ⟨rfl, rfl⟩ := h₃
  subst h₄
  exact ⟨.separateVector _ _ _ r, ⟨rfl, by simp [Instruction.operands], fun regs xs ys => values_separateVector⟩,
    rfl, rfl⟩

theorem exists_emitter (op : Operation) : ∃ emitter, op.function.compiled? = some emitter ∧
    ∀ (b : ProgramBuilder) (given : List Register), given.length = op.function.inputs.size →
      op.EmitsOne b given ((emitter given).run b) := by
  cases op with
  | arithmetic name op =>
      refine ⟨_, rfl, fun b given hlen => ?_⟩
      obtain ⟨r, s, rfl⟩ := List.length_eq_two.mp hlen
      have hr : Emit.pick [r, s] 0 = pure r := rfl
      have hs : Emit.pick [r, s] 1 = pure s := rfl
      simp only [hr, hs, pure_bind, Emit.binary, bind_assoc]
      exact emitsOne_single (f := fun dst => .binary op dst r s) rfl (fun _ => rfl)
        (by simp [Instruction.operands]) fun dst regs args ys => values_binary
  | combineVector =>
      refine ⟨_, rfl, fun b given hlen => ?_⟩
      obtain ⟨r, s, t, rfl⟩ := List.length_eq_three.mp hlen
      exact emitsOne_single (f := fun dst => .combineVector dst r s t) rfl (fun _ => rfl)
        (by simp [Instruction.operands]) fun dst regs args ys => values_combineVector
  | separateVector =>
      refine ⟨_, rfl, fun b given hlen => ?_⟩
      obtain ⟨r, rfl⟩ := List.length_eq_one_iff.mp hlen
      exact emitsOne_separateVector b r
  | switch =>
      refine ⟨_, rfl, fun b given hlen => ?_⟩
      obtain ⟨r, s, t, rfl⟩ := List.length_eq_three.mp hlen
      exact emitsOne_single (f := fun dst => .select dst r s t) rfl (fun _ => rfl)
        (by simp [Instruction.operands]) fun dst regs args ys => values_select
  | listSum =>
      refine ⟨_, rfl, fun b given hlen => ?_⟩
      obtain ⟨r, rfl⟩ := List.length_eq_one_iff.mp hlen
      exact emitsOne_single (f := fun dst => .listSum dst r) rfl (fun _ => rfl)
        (by simp [Instruction.operands]) fun dst regs args ys => values_listSum
  | range =>
      refine ⟨_, rfl, fun b given hlen => ?_⟩
      obtain ⟨r, s, t, rfl⟩ := List.length_eq_three.mp hlen
      exact emitsOne_single (f := fun dst => .floatRange dst r s t) rfl (fun _ => rfl)
        (by simp [Instruction.operands]) fun dst regs args ys => values_floatRange
  | intToFloat =>
      refine ⟨_, rfl, fun b given hlen => ?_⟩
      obtain ⟨r, rfl⟩ := List.length_eq_one_iff.mp hlen
      exact emitsOne_single (f := fun dst => .intToFloat dst r) rfl (fun _ => rfl)
        (by simp [Instruction.operands]) fun dst regs args ys => values_intToFloat
  | floatToInt =>
      refine ⟨_, rfl, fun b given hlen => ?_⟩
      obtain ⟨r, rfl⟩ := List.length_eq_one_iff.mp hlen
      exact emitsOne_single (f := fun dst => .floatToInt dst r) rfl (fun _ => rfl)
        (by simp [Instruction.operands]) fun dst regs args ys => values_floatToInt
  | constant value =>
      refine ⟨_, rfl, fun b given hlen => ?_⟩
      obtain rfl := List.length_eq_zero_iff.mp hlen
      simp only [Emit.constant, bind_assoc, pure_bind]
      refine emitsOne_single (f := fun dst => .constant dst value) rfl (fun _ => rfl)
        (by simp [Instruction.operands]) fun dst regs args ys hhold hys => ?_
      rcases hhold with _ | _
      cases hys
      exact ⟨rfl, rfl⟩

theorem exists_emits (op : Operation) : ∃ emitter, op.function.compiled? = some emitter ∧
    Emits emitter op.function.inputs.size op.function.outputs.size op.function.outputs.size
      fun xs ys => op.apply xs = some ys := by
  obtain ⟨emitter, hemitter, hone⟩ := op.exists_emitter
  refine ⟨emitter, hemitter, fun b given hlen hgiven => (hone b given hlen).mono (Nat.le_refl _) ?_⟩
  rintro outs b' - ⟨i, hi, rfl, rfl⟩
  rw [hi.destinations]
  exact ⟨length_registersFrom .., emission_push hi.destinations hi.operands hgiven hi.values⟩

end Operation

end Nodeflow
