import Nodeflow.Proofs.Program.Running
import Mathlib.Data.List.Forall2

/-!
# Renaming instructions

Instructions compute the same after their registers have been renamed, as long as no destination is
given the name of another register that is still in use.
-/

namespace Nodeflow
namespace Instruction

/-- The registers an instruction mentions, in the order of its fields. -/
def registers (i : Instruction) : List Register := i.destinations ++ i.operands

/-- The instruction with other registers in the places of its own. -/
def fill : Instruction → List Register → Instruction
  | constant _ value, [dst] => constant dst value
  | copy _ _, [dst, src] => copy dst src
  | binary op _ _ _, [dst, lhs, rhs] => binary op dst lhs rhs
  | combineVector _ _ _ _, [dst, x, y, z] => combineVector dst x y z
  | separateVector _ _ _ _, [x, y, z, src] => separateVector x y z src
  | select _ _ _ _, [dst, condition, ifTrue, ifFalse] => select dst condition ifTrue ifFalse
  | intToFloat _ _, [dst, src] => intToFloat dst src
  | floatToInt _ _, [dst, src] => floatToInt dst src
  | listSum _ _, [dst, src] => listSum dst src
  | floatRange _ _ _ _, [dst, amount, start, step] => floatRange dst amount start step
  | i, _ => i

def map (σ : Register → Register) (i : Instruction) : Instruction := i.fill (i.registers.map σ)

theorem rename_eq {m : Type → Type} [Monad m] [LawfulMonad m] (f : Register → m Register)
    (i : Instruction) : i.rename f = i.fill <$> i.registers.mapM f := by
  cases i <;> simp [rename, fill, registers, destinations, operands]

theorem map_congr {σ τ : Register → Register} {i : Instruction}
    (h : ∀ r ∈ i.registers, σ r = τ r) : i.map σ = i.map τ := by
  rw [map, map, List.map_congr_left h]

variable (σ : Register → Register)

@[simp] theorem destinations_map (i : Instruction) :
    (i.map σ).destinations = i.destinations.map σ := by
  cases i <;> rfl

@[simp] theorem operands_map (i : Instruction) : (i.map σ).operands = i.operands.map σ := by
  cases i <;> rfl

@[simp] theorem registers_map (i : Instruction) : (i.map σ).registers = i.registers.map σ := by
  rw [registers, destinations_map, operands_map, registers, List.map_append]

/-- An instruction computes the same after renaming if it reads the same. -/
theorem values_map {read read' : Register → Except Fault Value} {i : Instruction} {vs : List Value}
    (hread : ∀ r ∈ i.operands, ∀ v, read r = .ok v → read' (σ r) = .ok v)
    (h : i.values read = .ok vs) : (i.map σ).values read' = .ok vs := by
  cases i with
  | constant dst value => exact h
  | copy | binary | combineVector | intToFloat | floatToInt | floatRange =>
      simp only [values, bind_eq_ok_iff, readFloat_eq_ok_iff, readInt_eq_ok_iff, pure_eq_ok_iff] at h
      simp only [operands, List.mem_cons, List.not_mem_nil, or_false, forall_eq_or_imp, forall_eq]
        at hread
      simp only [map, fill, registers, destinations, operands, List.map, List.cons_append,
        List.nil_append, values, bind_eq_ok_iff, readFloat_eq_ok_iff, readInt_eq_ok_iff,
        pure_eq_ok_iff]
      grind
  | separateVector x y z src =>
      obtain ⟨v, hv, h⟩ := bind_eq_ok_iff.mp h
      refine bind_eq_ok_iff.mpr ⟨v, hread src (by simp [operands]) v hv, ?_⟩
      cases v with
      | vector3 a b c => exact h
      | _ => cases h
  | select dst condition ifTrue ifFalse =>
      obtain ⟨v, hv, h⟩ := bind_eq_ok_iff.mp h
      refine bind_eq_ok_iff.mpr ⟨v, hread condition (by simp [operands]) v hv, ?_⟩
      cases v with
      | bool b =>
          obtain ⟨w, hw, h⟩ := bind_eq_ok_iff.mp h
          refine bind_eq_ok_iff.mpr ⟨w, ?_, h⟩
          cases b with
          | true => exact hread ifTrue (by simp [operands]) w hw
          | false => exact hread ifFalse (by simp [operands]) w hw
      | _ => cases h
  | listSum dst src =>
      obtain ⟨v, hv, h⟩ := bind_eq_ok_iff.mp h
      refine bind_eq_ok_iff.mpr ⟨v, hread src (by simp [operands]) v hv, ?_⟩
      cases v with
      | floatList xs => exact h
      | _ => cases h

end Instruction

/-- The registers in use have the values of those they stand for. -/
structure Mirrors (σ : Register → Register) (used : Register → Prop) (regs regs' : Registers) :
    Prop where
  inside : ∀ r, used r → (σ r).number < regs'.size
  same : ∀ r, used r → ∀ v, regs.read r = .ok v → regs'.read (σ r) = .ok v

/-- No other register in use stands for the same register. -/
def Alone (σ : Register → Register) (used : Register → Prop) (d : Register) : Prop :=
  ∀ r, used r → σ r = σ d → r = d

/-- What runs on the registers that stand for others leaves behind. -/
structure Follows (σ : Register → Register) (used : Register → Prop) (written : List Register)
    (after before' after' : Registers) : Prop where
  mirrors : Mirrors σ used after after'
  size : after'.size = before'.size
  frame : ∀ i, (∀ d ∈ written, (σ d).number ≠ i) → after'[i]? = before'[i]?

variable {σ : Register → Register} {used : Register → Prop} {regs regs' after : Registers}

namespace Mirrors

theorem write (h : Mirrors σ used regs regs') {d : Register} (hd : used d) (ha : Alone σ used d)
    {v : Value} (hw : regs.write d v = .ok after) :
    ∃ after', regs'.write (σ d) v = .ok after' ∧ Follows σ used [d] after regs' after' := by
  have hw' : regs'.write (σ d) v = .ok (regs'.setIfInBounds (σ d).number (some v)) :=
    Registers.write_eq_ok_iff.mpr ⟨h.inside d hd, rfl⟩
  refine ⟨_, hw', ⟨fun r hr => ?_, fun r hr w hread => ?_⟩, Registers.size_write hw', fun i hi => ?_⟩
  · rw [Registers.size_write hw']
    exact h.inside r hr
  · rw [Registers.read_eq_ok_iff, Registers.getElem?_write hw] at hread
    rw [Registers.read_eq_ok_iff, Registers.getElem?_write hw']
    by_cases hrd : r = d
    · subst hrd
      simpa using hread
    · have hnum : r.number ≠ d.number := fun h => hrd (by cases r; cases d; cases h; rfl)
      have hσ : (σ r).number ≠ (σ d).number := fun heq =>
        hrd (ha r hr (by cases hr' : σ r; cases hd' : σ d; simp_all))
      rw [if_neg hnum] at hread
      rw [if_neg hσ]
      exact Registers.read_eq_ok_iff.mp (h.same r hr w (Registers.read_eq_ok_iff.mpr hread))
  · rw [Registers.getElem?_write hw', if_neg (Ne.symm (hi d (by simp)))]

theorem writeAll (h : Mirrors σ used regs regs') {ds : List Register} {vs : List Value}
    (hd : ∀ d ∈ ds, used d ∧ Alone σ used d) (hw : regs.writeAll (ds.zip vs) = .ok after) :
    ∃ after', regs'.writeAll ((ds.map σ).zip vs) = .ok after' ∧ Follows σ used ds after regs' after' := by
  induction ds generalizing vs regs regs' with
  | nil =>
      cases hw
      exact ⟨regs', rfl, h, rfl, fun _ _ => rfl⟩
  | cons d ds ih =>
      cases vs with
      | nil =>
          cases hw
          exact ⟨regs', rfl, h, rfl, fun _ _ => rfl⟩
      | cons v vs =>
          rw [List.zip_cons_cons, Registers.writeAll_cons, bind_eq_ok_iff] at hw
          obtain ⟨regs₁, hw₁, hw⟩ := hw
          obtain ⟨hused, halone⟩ := hd d (by simp)
          obtain ⟨regs₁', hw₁', hf₁⟩ := h.write hused halone hw₁
          obtain ⟨after', hw', hf⟩ := ih hf₁.mirrors (fun d' hd' => hd d' (by simp [hd'])) hw
          refine ⟨after', ?_, hf.mirrors, hf.size.trans hf₁.size, fun i hi => ?_⟩
          · rw [List.map_cons, List.zip_cons_cons, Registers.writeAll_cons, bind_eq_ok_iff]
            exact ⟨regs₁', hw₁', hw'⟩
          · rw [hf.frame i fun d' hd' => hi d' (by simp [hd']),
              hf₁.frame i fun d' hd' => hi d' (by simp_all)]

/-- A renamed instruction does to the renamed registers what the instruction does to its own. -/
theorem step (h : Mirrors σ used regs regs') {i : Instruction}
    (hused : ∀ r ∈ i.registers, used r) (halone : ∀ d ∈ i.destinations, Alone σ used d)
    (hstep : i.step regs = .ok after) :
    ∃ after', (i.map σ).step regs' = .ok after' ∧ Follows σ used i.destinations after regs' after' := by
  rw [Instruction.step_eq, bind_eq_ok_iff] at hstep
  obtain ⟨vs, hvs, hw⟩ := hstep
  obtain ⟨after', hw', hf⟩ := h.writeAll (fun d hd => ⟨hused d (List.mem_append_left _ hd), halone d hd⟩) hw
  refine ⟨after', ?_, hf⟩
  rw [Instruction.step_eq, bind_eq_ok_iff, Instruction.destinations_map]
  exact ⟨vs, Instruction.values_map σ (fun r hr => h.same r (hused r (List.mem_append_right _ hr))) hvs, hw'⟩

theorem runAll (h : Mirrors σ used regs regs') {instructions : List Instruction}
    (hused : ∀ i ∈ instructions, ∀ r ∈ i.registers, used r)
    (halone : ∀ i ∈ instructions, ∀ d ∈ i.destinations, Alone σ used d)
    (hrun : Instruction.runAll instructions regs = .ok after) :
    ∃ after', Instruction.runAll (instructions.map (Instruction.map σ)) regs' = .ok after' ∧
      Follows σ used (instructions.flatMap Instruction.destinations) after regs' after' := by
  induction instructions generalizing regs regs' with
  | nil =>
      cases hrun
      exact ⟨regs', rfl, h, rfl, fun _ _ => rfl⟩
  | cons i rest ih =>
      rw [Instruction.runAll_cons, bind_eq_ok_iff] at hrun
      obtain ⟨regs₁, hstep, hrun⟩ := hrun
      obtain ⟨regs₁', hstep', hf₁⟩ := h.step (hused i (by simp)) (halone i (by simp)) hstep
      obtain ⟨after', hrun', hf⟩ := ih hf₁.mirrors (fun j hj => hused j (by simp [hj]))
        (fun j hj => halone j (by simp [hj])) hrun
      refine ⟨after', ?_, hf.mirrors, hf.size.trans hf₁.size, fun k hk => ?_⟩
      · rw [List.map_cons, Instruction.runAll_cons, bind_eq_ok_iff]
        exact ⟨regs₁', hstep', hrun'⟩
      · rw [hf.frame k fun d hd => hk d (by simp only [List.flatMap_cons, List.mem_append, hd, or_true]),
          hf₁.frame k fun d hd => hk d (by simp only [List.flatMap_cons, List.mem_append, hd, true_or])]

end Mirrors

end Nodeflow
