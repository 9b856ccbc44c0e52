import Nodeflow.Proofs.Program.Naming

/-!
# Inlining programs

The instructions of an inlined program do to the registers of its caller what the program does to
its own. They leave the caller's registers as they are if the program does not write its inputs,
which the caller's registers stand for.
-/

namespace Nodeflow

open Renaming

def Registers.Hold (regs : Registers) (rs : List Register) (vs : List Value) : Prop :=
  List.Forall₂ (fun r v => regs.read r = .ok v) rs vs

namespace Program

variable {p : Program} {given : List Register} {t₀ t : Renaming} {b₀ b : ProgramBuilder} {r : Register}
  {first : Nat}

/-- All registers that the program mentions are its own. -/
structure Valid (p : Program) : Prop where
  inputs : ∀ r ∈ p.inputs, r.number < p.registerCount
  outputs : ∀ r ∈ p.outputs, r.number < p.registerCount
  instructions : ∀ i ∈ p.instructions, ∀ r ∈ i.registers, r.number < p.registerCount

/-- No instruction of the program writes one of its inputs. -/
def KeepsInputs (p : Program) : Prop := ∀ i ∈ p.instructions, ∀ d ∈ i.destinations, d ∉ p.inputs

/-- The registers of the instructions in order, and then those of the results. -/
def mentions (p : Program) : List Register :=
  p.instructions.toList.flatMap Instruction.registers ++ p.outputs

/-- The registers that are no inputs, in the order of their first mention. -/
def locals (p : Program) : List Register := (p.mentions.filter (· ∉ p.inputs)).eraseDups

/--
The register that stands for one of the program. An input is known by its last position, and the
other registers are numbered on from some number in the order of their first mention.
-/
def placing (p : Program) (given : List Register) (first : Nat) (r : Register) : Register :=
  if r ∈ p.inputs then given[lastPosition r p.inputs]?.getD r else ⟨first + p.locals.idxOf r⟩

theorem mem_locals_iff : r ∈ p.locals ↔ r ∈ p.mentions ∧ r ∉ p.inputs := by
  simp [locals]

theorem nodup_locals (p : Program) : p.locals.Nodup := nodup_eraseDups _

theorem mem_mentions_of_output (hr : r ∈ p.outputs) : r ∈ p.mentions :=
  List.mem_append_right _ hr

theorem mem_mentions_of_instruction {i : Instruction} (hi : i ∈ p.instructions.toList)
    (hr : r ∈ i.registers) : r ∈ p.mentions :=
  List.mem_append_left _ (List.mem_flatMap.mpr ⟨i, hi, hr⟩)

theorem Valid.mentions_lt (hv : p.Valid) (hr : r ∈ p.mentions) : r.number < p.registerCount := by
  rcases List.mem_append.mp hr with hr | hr
  · obtain ⟨i, hi, hr⟩ := List.mem_flatMap.mp hr
    exact hv.instructions i (by simpa using hi) r hr
  · exact hv.outputs r hr

/-! ## The registers that stand for those of a program -/

theorem placing_input (first : Nat) (hlen : given.length = p.inputs.length) (hr : r ∈ p.inputs) :
    given[lastPosition r p.inputs]? = some (p.placing given first r) := by
  have hlt : lastPosition r p.inputs < given.length := hlen ▸ lastPosition_lt hr
  rw [placing, if_pos hr, List.getElem?_eq_getElem hlt]
  rfl

theorem placing_local {k : Nat} (hk : p.locals[k]? = some r) : p.placing given first r = ⟨first + k⟩ := by
  obtain ⟨hlt, rfl⟩ := List.getElem?_eq_some_iff.mp hk
  rw [placing, if_neg (mem_locals_iff.mp (List.getElem_mem hlt)).2,
    (nodup_locals p).idxOf_getElem k hlt]

theorem mentions_cases (hr : r ∈ p.mentions) : r ∈ p.inputs ∨ ∃ k : Nat, p.locals[k]? = some r := by
  by_cases hin : r ∈ p.inputs
  · exact .inl hin
  · exact .inr (List.mem_iff_getElem?.mp (mem_locals_iff.mpr ⟨hr, hin⟩))

section

variable (hlen : given.length = p.inputs.length) (hgiven : ∀ c ∈ given, c.number < first)
include hlen hgiven

theorem placing_lt (hr : r ∈ p.mentions) :
    (p.placing given first r).number < first + p.locals.length := by
  rcases mentions_cases hr with hin | ⟨k, hk⟩
  · have hlt := hgiven _ (List.mem_of_getElem? (placing_input first hlen hin))
    omega
  · have hlt := (List.getElem?_eq_some_iff.mp hk).1
    rw [placing_local hk]
    dsimp only
    omega

theorem alone_placing {d : Register} (hd : d ∈ p.mentions) (hsafe : d ∉ p.inputs ∨ given.Nodup) :
    Alone (p.placing given first) (· ∈ p.mentions) d := by
  intro r hr heq
  have hbelow {s : Register} (hs : s ∈ p.inputs) : (p.placing given first s).number < first :=
    hgiven _ (List.mem_of_getElem? (placing_input first hlen hs))
  rcases mentions_cases hd with hdin | ⟨k, hk⟩ <;> rcases mentions_cases hr with hrin | ⟨j, hj⟩
  · have hnodup := hsafe.resolve_left (not_not_intro hdin)
    have hdat := placing_input first hlen hdin
    have hrat := placing_input first hlen hrin
    rw [heq, ← hdat] at hrat
    have hpos : lastPosition r p.inputs = lastPosition d p.inputs :=
      (List.getElem?_inj (hlen ▸ lastPosition_lt hrin) hnodup).mp hrat
    have hrlast := getElem?_lastPosition hrin
    rw [hpos, getElem?_lastPosition hdin] at hrlast
    exact (Option.some.inj hrlast).symm
  · have hlt := hbelow hdin
    rw [← heq, placing_local hj] at hlt
    exact absurd hlt (by simp)
  · have hlt := hbelow hrin
    rw [heq, placing_local hk] at hlt
    exact absurd hlt (by simp)
  · rw [placing_local hk, placing_local hj, Register.mk.injEq, Nat.add_left_cancel_iff] at heq
    subst heq
    rw [hk] at hj
    exact (Option.some.inj hj).symm

end

/-! ## The outcome of inlining -/

theorem exists_inputRenaming (hv : p.Valid) (given : List Register) :
    ∃ t₀, p.inputRenaming given = .ok t₀ ∧ t₀.size = p.registerCount := by
  obtain ⟨t₀, ht, hsize⟩ := exists_fill (Array.replicate p.registerCount none) (p.inputs.zip given) (by
    rintro ⟨r, c⟩ hr
    simpa using hv.inputs r (List.of_mem_zip hr).1)
  exact ⟨t₀, ht, by simpa using hsize⟩

theorem getElem?_inputRenaming (hlen : given.length = p.inputs.length) (ht : p.inputRenaming given = .ok t₀)
    (r : Register) : t₀[r.number]? = if r ∈ p.inputs then given[lastPosition r p.inputs]?.map some
      else if r.number < p.registerCount then some none else none := by
  rw [getElem?_fill hlen.symm (show fill (Array.replicate p.registerCount none) (p.inputs.zip given) = .ok t₀ from ht),
    Array.getElem?_replicate]

theorem unnamed_inputRenaming (hv : p.Valid) (hlen : given.length = p.inputs.length)
    (ht : p.inputRenaming given = .ok t₀) : t₀.unnamed p.mentions = p.locals := by
  rw [unnamed, locals]
  congr 1
  refine List.filter_congr fun r hr => ?_
  rw [getElem?_inputRenaming hlen ht]
  by_cases hin : r ∈ p.inputs
  · rw [if_pos hin, placing_input 0 hlen hin]
    simp [hin]
  · simp [hin, hv.mentions_lt hr]

theorem name_eq_placing (hv : p.Valid) (hlen : given.length = p.inputs.length)
    (ht : p.inputRenaming given = .ok t₀) (h : Numbered t₀ b₀ p.mentions t b) (hr : r ∈ p.mentions) :
    t.name r = p.placing given b₀.registerCount r := by
  rcases mentions_cases hr with hin | ⟨k, hk⟩
  · refine name_eq (h.keeps_start _ _ ?_)
    rw [getElem?_inputRenaming hlen ht, if_pos hin, placing_input b₀.registerCount hlen hin]
    rfl
  · rw [placing_local hk]
    exact name_eq (h.number k r (by rwa [unnamed_inputRenaming hv hlen ht]))

def renameAll (p : Program) : StateT Renaming Emit (List Instruction × List Register) := do
  let instructions ← p.instructions.toList.mapM (Instruction.rename renamed)
  let outputs ← p.outputs.mapM renamed
  return (instructions, outputs)

theorem run_forM_emit (is : List Instruction) (b : ProgramBuilder) :
    (is.forM Emit.emit : Emit PUnit).run b = .ok (⟨⟩, { b with instructions := b.instructions ++ is }) := by
  induction is generalizing b with
  | nil =>
      rw [Array.appendList_nil]
      rfl
  | cons i is ih =>
      change (Emit.emit i >>= fun _ => is.forM Emit.emit).run b = _
      rw [StateT.run_bind]
      change (is.forM Emit.emit).run { b with instructions := b.instructions.push i } = _
      rw [ih]
      simp

theorem named_renameAll (hv : p.Valid) (hsize : t₀.size = p.registerCount) (b₀ : ProgramBuilder) :
    Named t₀ b₀ p.mentions (nameOn p.renameAll t₀ b₀) fun t x =>
      x = (p.instructions.toList.map (Instruction.map t.name), p.outputs.map t.name) := by
  have hlt : ∀ i ∈ p.instructions.toList, ∀ r ∈ i.registers, r.number < t₀.size := fun i hi r hr =>
    hsize ▸ hv.instructions i (by simpa using hi) r hr
  refine (named_instructions (Numbered.refl t₀ b₀) hlt).bind fun is t b h his => ?_
  refine (named_registers h fun r hr => hsize ▸ hv.outputs r hr).map fun outs t' b' h' houts => ?_
  rw [List.nil_append] at h h'
  rw [← his, ← houts, Prod.mk.injEq]
  refine ⟨List.map_congr_left fun i hi => Instruction.map_congr fun r hr => ?_, rfl⟩
  exact ((h.keeps h').name_eq (h.names (List.mem_flatMap.mpr ⟨i, hi, hr⟩) (hlt i hi r hr))).symm

/-- Inlining renames the program and takes one new register for each local one, if there are so many. -/
theorem run_inlined (hv : p.Valid) (hlen : given.length = p.inputs.length) (b₀ : ProgramBuilder) :
    (p.inlined given).run b₀ = .error .counterOverflow ∧
        UInt32.size ≤ b₀.registerCount + p.locals.length ∨
      (p.inlined given).run b₀ = .ok (p.outputs.map (p.placing given b₀.registerCount),
          ⟨b₀.instructions ++ p.instructions.map (Instruction.map (p.placing given b₀.registerCount)),
            b₀.registerCount + p.locals.length⟩) ∧
        (b₀.registerCount < UInt32.size → b₀.registerCount + p.locals.length < UInt32.size) := by
  obtain ⟨t₀, ht, hsize⟩ := exists_inputRenaming hv given
  have hrun : (p.inlined given).run b₀ = nameOn p.renameAll t₀ b₀ >>= fun ((x, _), b) =>
      (x.1.forM Emit.emit : Emit PUnit).run b >>= fun (_, b) => .ok (x.2, b) := by
    unfold inlined
    rw [ht]
    change ((Prod.fst <$> p.renameAll.run t₀) >>= fun x =>
      (x.1.forM Emit.emit : Emit PUnit) >>= fun _ => pure x.2).run b₀ = _
    simp only [StateT.run_bind, bind_map_left]
    rfl
  rcases named_renameAll hv hsize b₀ with ⟨hout, hroom⟩ | ⟨_, t, b, hout, h, rfl⟩
  · rw [unnamed_inputRenaming hv hlen ht] at hroom
    refine .inl ⟨?_, hroom⟩
    rw [hrun, hout]
    rfl
  · have hname := fun (r : Register) (hr : r ∈ p.mentions) => name_eq_placing hv hlen ht h hr
    have hcount := h.registerCount_eq
    have hlt := h.lt_size
    rw [unnamed_inputRenaming hv hlen ht] at hcount
    refine .inr ⟨?_, hcount ▸ hlt⟩
    have his : p.instructions.toList.map (Instruction.map t.name) =
        p.instructions.toList.map (Instruction.map (p.placing given b₀.registerCount)) :=
      List.map_congr_left fun i hi => Instruction.map_congr fun r hr =>
        hname r (mem_mentions_of_instruction hi hr)
    have houts : p.outputs.map t.name = p.outputs.map (p.placing given b₀.registerCount) :=
      List.map_congr_left fun r hr => hname r (mem_mentions_of_output hr)
    rw [hrun, hout, ok_bind]
    dsimp only
    rw [run_forM_emit, ok_bind, his, houts, h.builder, unnamed_inputRenaming hv hlen ht]
    have happend : b₀.instructions ++ p.instructions.toList.map (Instruction.map (p.placing given b₀.registerCount)) =
        b₀.instructions ++ p.instructions.map (Instruction.map (p.placing given b₀.registerCount)) :=
      Array.toList_inj.mp (by simp)
    rw [happend]

/-! ## Running inlined programs -/

theorem execute_eq_ok_iff {args ys : List Value} : p.execute args = .ok ys ↔
    args.length = p.inputs.length ∧ ∃ loaded final, p.load args = .ok loaded ∧
      Instruction.runAll p.instructions.toList loaded = .ok final ∧ final.Hold p.outputs ys := by
  have hrun (regs : Registers) : p.instructions.foldlM (fun regs i => i.step regs) regs =
      Instruction.runAll p.instructions.toList regs := by
    rw [Instruction.runAll, Array.foldlM_toList]
  unfold execute Registers.Hold
  by_cases hlen : args.length = p.inputs.length
  · simp [hlen, hrun, mapM_eq_ok_iff]
  · simp [hlen]

theorem read_load_iff {args : List Value} {loaded : Registers} (hlen : args.length = p.inputs.length)
    (hload : p.load args = .ok loaded) {v : Value} : loaded.read r = .ok v ↔
      r ∈ p.inputs ∧ args[lastPosition r p.inputs]? = some v := by
  rw [Registers.read_eq_ok_iff, getElem?_fill hlen.symm
    (show fill (Array.replicate p.registerCount none) (p.inputs.zip args) = .ok loaded from hload)]
  by_cases hr : r ∈ p.inputs
  · simp [hr]
  · rw [if_neg hr, Array.getElem?_replicate]
    split <;> simp [hr]

theorem mirrors_placing (hlen : given.length = p.inputs.length) (hgiven : ∀ c ∈ given, c.number < first)
    {regs loaded : Registers} {args : List Value} (hsize : first + p.locals.length ≤ regs.size)
    (hhold : regs.Hold given args) (hload : p.load args = .ok loaded) :
    Mirrors (p.placing given first) (· ∈ p.mentions) loaded regs := by
  refine ⟨fun r hr => ?_, fun r hr v hread => ?_⟩
  · exact Nat.lt_of_lt_of_le (placing_lt hlen hgiven hr) hsize
  · have hlen' : args.length = p.inputs.length := by rw [← hlen, List.Forall₂.length_eq hhold]
    obtain ⟨hin, hv⟩ := (read_load_iff hlen' hload).mp hread
    obtain ⟨v', hv', hread'⟩ := (forall₂_iff_getElem?.mp hhold).2 (placing_input first hlen hin)
    rw [hv] at hv'
    cases hv'
    exact hread'

theorem runs_inlined (hlen : given.length = p.inputs.length) (hgiven : ∀ c ∈ given, c.number < first)
    (hsafe : p.KeepsInputs ∨ given.Nodup) {regs : Registers} {args ys : List Value}
    (hsize : first + p.locals.length ≤ regs.size) (hhold : regs.Hold given args)
    (hexec : p.execute args = .ok ys) :
    ∃ after, Instruction.runAll (p.instructions.toList.map (Instruction.map (p.placing given first))) regs =
        .ok after ∧ after.size = regs.size ∧ after.Hold (p.outputs.map (p.placing given first)) ys ∧
          (p.KeepsInputs → ∀ i < first, after[i]? = regs[i]?) := by
  obtain ⟨-, loaded, final, hload, hrun, hout⟩ := execute_eq_ok_iff.mp hexec
  have hdest {i : Instruction} {d : Register} (hi : i ∈ p.instructions.toList) (hd : d ∈ i.destinations) :
      d ∈ p.mentions := mem_mentions_of_instruction hi (List.mem_append_left _ hd)
  obtain ⟨after, hafter, hfollows⟩ := (mirrors_placing hlen hgiven hsize hhold hload).runAll
    (fun i hi r hr => mem_mentions_of_instruction hi hr)
    (fun i hi d hd => alone_placing hlen hgiven (hdest hi hd)
      (hsafe.imp (fun hk => hk i (by simpa using hi) d hd) id)) hrun
  refine ⟨after, hafter, hfollows.size, ?_, fun hk i hi => hfollows.frame i fun d hd heq => ?_⟩
  · unfold Registers.Hold at hout ⊢
    rw [List.forall₂_map_left_iff]
    refine ((List.forall₂_and_left _ _).mpr ⟨fun r => mem_mentions_of_output, hout⟩).imp fun r v hr => ?_
    exact hfollows.mirrors.same r hr.1 v hr.2
  · obtain ⟨j, hj, hd⟩ := List.mem_flatMap.mp hd
    rcases mentions_cases (hdest hj hd) with hin | ⟨k, hk'⟩
    · exact hk j (by simpa using hj) d hd hin
    · rw [placing_local hk'] at heq
      dsimp only at heq
      omega

end Program
end Nodeflow
