import Nodeflow.Proofs.Function.Attaching
import Nodeflow.Proofs.Program.Emission
import Mathlib.Data.Set.Function

/-!
# Renumbering programs

A function whose body is a finished program has a program of its own, which is the finished one
with its registers numbered anew: the inputs come first, and then the others in the order of their
first mention. It computes the same, and there is nothing left to renumber in it.
-/

namespace Nodeflow

namespace Instruction

theorem map_eq_self {σ : Register → Register} {i : Instruction} (h : ∀ r ∈ i.registers, σ r = r) :
    i.map σ = i := by
  have hid : i.map (fun r => r) = i := by
    cases i <;> rfl
  rw [map_congr h, hid]

theorem map_map (σ τ : Register → Register) (i : Instruction) : (i.map σ).map τ = i.map (τ ∘ σ) := by
  cases i <;> rfl

end Instruction

namespace Program

variable {p q : Program} {σ τ : Register → Register} {args ys : List Value} {r : Register}

theorem map_instructions_eq_self (h : ∀ r ∈ p.mentions, σ r = r) :
    p.instructions.toList.map (Instruction.map σ) = p.instructions.toList := by
  conv_rhs => rw [← List.map_id p.instructions.toList]
  exact List.map_congr_left fun i hi => Instruction.map_eq_self fun r hr =>
    h r (mem_mentions_of_instruction hi hr)

theorem map_outputs_eq_self (h : ∀ r ∈ p.mentions, σ r = r) : p.outputs.map σ = p.outputs := by
  conv_rhs => rw [← List.map_id p.outputs]
  exact List.map_congr_left fun r hr => h r (mem_mentions_of_output hr)

theorem exists_load (hv : p.Valid) (args : List Value) :
    ∃ loaded, p.load args = .ok loaded ∧ loaded.size = p.registerCount := by
  obtain ⟨loaded, hload, hsize⟩ := exists_fill (Array.replicate p.registerCount none) (p.inputs.zip args) (by
    rintro ⟨r, v⟩ hr
    simpa using hv.inputs r (List.of_mem_zip hr).1)
  exact ⟨loaded, hload, by simpa using hsize⟩

/-! ## Programs with other names -/

/-- A program is another one with other names for the registers that it mentions. -/
structure Renames (σ : Register → Register) (p q : Program) : Prop where
  arity : q.inputs.length = p.inputs.length
  outputs : q.outputs = p.outputs.map σ
  instructions : q.instructions.toList = p.instructions.toList.map (Instruction.map σ)
  injective : Set.InjOn σ {r | r ∈ p.mentions}
  input : ∀ r ∈ p.mentions, σ r ∈ q.inputs ↔ r ∈ p.inputs
  position : ∀ r ∈ p.mentions, r ∈ p.inputs → lastPosition (σ r) q.inputs = lastPosition r p.inputs

namespace Renames

theorem mentions (h : Renames σ p q) : q.mentions = p.mentions.map σ := by
  simp [Program.mentions, h.outputs, h.instructions, List.flatMap_map, List.map_flatMap]

theorem symm (h : Renames σ p q) : ∃ τ, Renames τ q p := by
  have hback : ∀ r ∈ p.mentions, Function.invFunOn σ {r | r ∈ p.mentions} (σ r) = r :=
    fun r hr => h.injective.leftInvOn_invFunOn hr
  generalize Function.invFunOn σ {r | r ∈ p.mentions} = τ at hback
  have hnames {s : Register} (hs : s ∈ q.mentions) : ∃ r ∈ p.mentions, σ r = s ∧ τ s = r := by
    rw [h.mentions] at hs
    obtain ⟨r, hr, rfl⟩ := List.mem_map.mp hs
    exact ⟨r, hr, rfl, hback r hr⟩
  refine ⟨τ, h.arity.symm, ?_, ?_, fun s hs s' hs' heq => ?_, fun s hs => ?_, fun s hs hin => ?_⟩
  · rw [h.outputs, List.map_map]
    exact (map_outputs_eq_self hback).symm
  · rw [h.instructions, List.map_map]
    refine (map_instructions_eq_self hback).symm.trans (List.map_congr_left fun i _ => ?_)
    exact (Instruction.map_map σ τ i).symm
  · obtain ⟨r, hr, rfl, hτ⟩ := hnames hs
    obtain ⟨r', hr', rfl, hτ'⟩ := hnames hs'
    rw [hτ, hτ'] at heq
    rw [heq]
  · obtain ⟨r, hr, rfl, hτ⟩ := hnames hs
    rw [hτ]
    exact (h.input r hr).symm
  · obtain ⟨r, hr, rfl, hτ⟩ := hnames hs
    rw [hτ]
    exact (h.position r hr ((h.input r hr).mp hin)).symm

theorem mirrors (h : Renames σ p q) (hq : q.Valid) {loaded loaded' : Registers}
    (hlen : args.length = p.inputs.length) (hload : p.load args = .ok loaded)
    (hload' : q.load args = .ok loaded') (hsize : loaded'.size = q.registerCount) :
    Mirrors σ (· ∈ p.mentions) loaded loaded' := by
  refine ⟨fun r hr => ?_, fun r hr v hread => ?_⟩
  · rw [hsize]
    exact hq.mentions_lt (h.mentions ▸ List.mem_map_of_mem hr)
  · obtain ⟨hin, hv⟩ := (read_load_iff hlen hload).mp hread
    refine (read_load_iff (hlen.trans h.arity.symm) hload').mpr ⟨(h.input r hr).mpr hin, ?_⟩
    rwa [h.position r hr hin]

theorem execute (h : Renames σ p q) (hq : q.Valid) (hexec : p.execute args = .ok ys) :
    q.execute args = .ok ys := by
  obtain ⟨hlen, loaded, final, hload, hrun, hout⟩ := execute_eq_ok_iff.mp hexec
  obtain ⟨loaded', hload', hsize⟩ := exists_load hq args
  have hmentioned (i : Instruction) (hi : i ∈ p.instructions.toList) (r : Register) (hr : r ∈ i.registers) :
      r ∈ p.mentions := mem_mentions_of_instruction hi hr
  obtain ⟨final', hrun', hfollows⟩ := (h.mirrors hq hlen hload hload' hsize).runAll hmentioned
    (fun i hi d hd r hr heq => h.injective hr (hmentioned i hi d (List.mem_append_left _ hd)) heq) hrun
  refine execute_eq_ok_iff.mpr ⟨hlen.trans h.arity.symm, loaded', final', hload', ?_, ?_⟩
  · rwa [h.instructions]
  · rw [h.outputs, Registers.Hold, List.forall₂_map_left_iff]
    refine ((List.forall₂_and_left _ _).mpr ⟨fun r => mem_mentions_of_output, hout⟩).imp fun r v hr => ?_
    exact hfollows.mirrors.same r hr.1 v hr.2

theorem agree (h : Renames σ p q) (hp : p.Valid) (hq : q.Valid) (args : List Value) :
    Agree (q.execute args) (p.execute args) := by
  obtain ⟨τ, hback⟩ := h.symm
  exact fun ys => ⟨hback.execute hp, h.execute hq⟩

end Renames

/-! ## Numbering anew -/

/-- Inputs keep their position, and the other registers follow as they are mentioned. -/
def renumbering (p : Program) : Register → Register :=
  p.placing (registersFrom 0 p.inputs.length) p.inputs.length

def renumbered (p : Program) : Program where
  inputs := registersFrom 0 p.inputs.length
  outputs := p.outputs.map p.renumbering
  instructions := p.instructions.map (Instruction.map p.renumbering)
  registerCount := p.inputs.length + p.locals.length

theorem renumbering_input (hr : r ∈ p.inputs) : p.renumbering r = ⟨lastPosition r p.inputs⟩ := by
  have hat := placing_input p.inputs.length (length_registersFrom 0 p.inputs.length) hr
  rw [getElem?_registersFrom (lastPosition_lt hr), Nat.zero_add] at hat
  exact (Option.some.inj hat).symm

theorem renumbering_local {k : Nat} (hk : p.locals[k]? = some r) :
    p.renumbering r = ⟨p.inputs.length + k⟩ := placing_local hk

theorem lt_of_mem_fresh {c : Register} (hc : c ∈ registersFrom 0 p.inputs.length) :
    c.number < p.inputs.length := by
  simpa using (mem_registersFrom_iff.mp hc).2

theorem renumbering_lt (hr : r ∈ p.mentions) : (p.renumbering r).number < p.renumbered.registerCount :=
  placing_lt (by simp) (fun _ => lt_of_mem_fresh) hr

theorem renumbering_mem_iff (hr : r ∈ p.mentions) : p.renumbering r ∈ p.renumbered.inputs ↔ r ∈ p.inputs := by
  rw [renumbered, mem_registersFrom_iff]
  rcases mentions_cases hr with hin | ⟨k, hk⟩
  · rw [renumbering_input hin]
    simpa [hin] using lastPosition_lt hin
  · have hout := (mem_locals_iff.mp (List.mem_of_getElem? hk)).2
    rw [renumbering_local hk]
    simp [hout]

theorem renames_renumbered (p : Program) : Renames p.renumbering p p.renumbered where
  arity := by simp [renumbered]
  outputs := rfl
  instructions := by simp [renumbered]
  injective r hr s hs heq := alone_placing (by simp) (fun _ => lt_of_mem_fresh) hs
    (.inr (nodup_registersFrom _ _)) r hr heq
  input _ hr := renumbering_mem_iff hr
  position r _ hin := by
    rw [renumbering_input hin]
    refine lastPosition_of_nodup (nodup_registersFrom _ _) ?_
    rw [getElem?_registersFrom (lastPosition_lt hin), Nat.zero_add]

theorem valid_renumbered (p : Program) : p.renumbered.Valid := by
  have hmentions := (renames_renumbered p).mentions
  have hlt (s : Register) (hs : s ∈ p.renumbered.mentions) : s.number < p.renumbered.registerCount := by
    rw [hmentions] at hs
    obtain ⟨r, hr, rfl⟩ := List.mem_map.mp hs
    exact renumbering_lt hr
  refine ⟨fun r hr => ?_, fun r hr => hlt r (mem_mentions_of_output hr), fun i hi r hr =>
    hlt r (mem_mentions_of_instruction (by simpa using hi) hr)⟩
  exact Nat.lt_of_lt_of_le (lt_of_mem_fresh hr) (Nat.le_add_right _ _)

theorem Valid.renumbered_le (hv : p.Valid) (hnodup : p.inputs.Nodup) :
    p.renumbered.registerCount ≤ p.registerCount := by
  have hall : (p.inputs ++ p.locals).Nodup := List.nodup_append'.mpr
    ⟨hnodup, p.nodup_locals, fun r hin hlocal => (mem_locals_iff.mp hlocal).2 hin⟩
  rw [renumbered, ← List.length_append]
  refine length_le_of_nodup hall fun r hr => ?_
  rcases List.mem_append.mp hr with hr | hr
  · exact hv.inputs r hr
  · exact hv.mentions_lt (mem_locals_iff.mp hr).1

theorem locals_renumbered (p : Program) :
    p.renumbered.locals = registersFrom p.inputs.length p.locals.length := by
  have h := renames_renumbered p
  have hfilter : p.renumbered.mentions.filter (· ∉ p.renumbered.inputs) =
      (p.mentions.filter (· ∉ p.inputs)).map p.renumbering := by
    rw [h.mentions, List.filter_map]
    congr 1
    exact List.filter_congr fun r hr => by simp [h.input r hr]
  rw [locals, hfilter, eraseDups_map _ fun r hr s hs => h.injective (List.mem_filter.mp hr).1 (List.mem_filter.mp hs).1,
    ← locals]
  refine List.ext_getElem? fun k => ?_
  rw [List.getElem?_map]
  cases hk : p.locals[k]? with
  | none =>
      rw [List.getElem?_eq_none_iff] at hk
      exact (List.getElem?_eq_none (by simpa using hk)).symm
  | some r => rw [Option.map_some, renumbering_local hk, getElem?_registersFrom (List.getElem?_eq_some_iff.mp hk).1]

/-- A program with its registers in order keeps them when it is numbered anew. -/
theorem renumbered_eq_self (hin : p.inputs = registersFrom 0 p.inputs.length)
    (hlocal : p.locals = registersFrom p.inputs.length p.locals.length)
    (hcount : p.registerCount = p.inputs.length + p.locals.length) : p.renumbered = p := by
  have hself (r : Register) (hr : r ∈ p.mentions) : p.renumbering r = r := by
    rcases mentions_cases hr with hr | ⟨k, hk⟩
    · have hat := placing_input p.inputs.length (rfl : p.inputs.length = _) hr
      rw [getElem?_lastPosition hr] at hat
      rw [renumbering, ← hin]
      exact (Option.some.inj hat).symm
    · have hlt := (List.getElem?_eq_some_iff.mp hk).1
      rw [renumbering_local hk]
      rw [hlocal, getElem?_registersFrom hlt] at hk
      exact Option.some.inj hk
  rw [renumbered, ← hin, ← hcount, map_outputs_eq_self hself, Array.toList_inj.mp
    ((Array.toList_map ..).trans (map_instructions_eq_self hself))]

theorem renumbered_renumbered (p : Program) : p.renumbered.renumbered = p.renumbered := by
  have hlen : p.renumbered.inputs.length = p.inputs.length := length_registersFrom ..
  refine renumbered_eq_self ?_ ?_ ?_
  · rw [hlen, renumbered]
  · rw [locals_renumbered, hlen, length_registersFrom]
  · rw [locals_renumbered, hlen, length_registersFrom, renumbered]

end Program

namespace Function

open Program

variable {f : Function} {p : Program}

theorem run_emit_inlined (hv : p.Valid) (hin : f.inputs.size = p.inputs.length)
    (hout : f.outputs.size = p.outputs.length) {given : List Register} (hgiven : given.length = p.inputs.length)
    (b : ProgramBuilder) : (f.emit p.inlined given).run b = (p.inlined given).run b := by
  have hemit : f.emit p.inlined given = p.inlined given >>= fun outputs => do
      if outputs.length ≠ f.outputs.size then
        throw (.outputRegisters f.name outputs.length f.outputs.size)
      return outputs := by
    unfold emit
    rw [if_neg (by simpa using hgiven.trans hin.symm)]
  rw [hemit, StateT.run_bind]
  rcases run_inlined hv hgiven b with ⟨hrun, -⟩ | ⟨hrun, -⟩
  · rw [hrun]
    rfl
  · rw [hrun, ok_bind, if_neg (by simpa using hout.symm)]
    rfl

theorem program_inlined (hv : p.Valid) (hin : f.inputs.size = p.inputs.length)
    (hout : f.outputs.size = p.outputs.length) : f.program p.inlined =
      if p.renumbered.registerCount < UInt32.size then .ok p.renumbered else .error .counterOverflow := by
  have hcount : p.renumbered.registerCount = p.inputs.length + p.locals.length := rfl
  have hgiven : (registersFrom 0 p.inputs.length).length = p.inputs.length := length_registersFrom ..
  unfold program
  rcases emitsOr_newRegisters {} p.inputs.length with ⟨hnew, hroom⟩ | ⟨given, b, hnew, hallots, rfl, rfl⟩
  · dsimp only at hroom
    simp only [hin, StateT.run_bind, hnew]
    rw [if_neg (by omega)]
    rfl
  · simp only [hin, StateT.run_bind, hnew, ok_bind, run_emit_inlined hv hin hout hgiven]
    have hfits := hallots.lt_size (by decide)
    dsimp only [Nat.zero_add] at hfits
    rcases run_inlined hv hgiven ⟨#[], 0 + p.inputs.length⟩ with ⟨hrun, hroom⟩ | ⟨hrun, hroom⟩
    · dsimp only at hroom
      rw [hrun, if_neg (by omega)]
      rfl
    · dsimp only at hroom
      rw [hrun, if_pos (by omega), renumbered]
      simp [ProgramBuilder.finish, renumbering]

theorem exists_program_inlined (hv : p.Valid) (hnodup : p.inputs.Nodup)
    (hcount : p.registerCount < UInt32.size) (hin : f.inputs.size = p.inputs.length)
    (hout : f.outputs.size = p.outputs.length) :
    ∃ q, f.program p.inlined = .ok q ∧ ∀ args ys, p.execute args = .ok ys → q.execute args = .ok ys := by
  refine ⟨p.renumbered, ?_, fun args ys => (renames_renumbered p).execute p.valid_renumbered⟩
  rw [program_inlined hv hin hout, if_pos (Nat.lt_of_le_of_lt (hv.renumbered_le hnodup) hcount)]

theorem exists_attached_program (hv : p.Valid) (hf : f.compiled? = none)
    (hin : f.inputs.size = p.inputs.length) (hout : f.outputs.size = p.outputs.length) :
    ∃ f', f.attach (.ofProgram p) = .ok f' ∧ f'.compiled? = some p.inlined ∧ f'.program p.inlined =
      if p.renumbered.registerCount < UInt32.size then .ok p.renumbered else .error .counterOverflow :=
  ⟨_, attach_compiled hf p.inlined, compiled?_attached hf p.inlined, program_inlined hv hin hout⟩

/-- A function with a finished program for its body computes what that program computes. -/
theorem attached_program_agrees (hv : p.Valid) (hf : f.compiled? = none) (hin : f.inputs.size = p.inputs.length)
    (hout : f.outputs.size = p.outputs.length) :
    ∃ f' emitter, f.attach (.ofProgram p) = .ok f' ∧ f'.compiled? = some emitter ∧
      (UInt32.size ≤ p.inputs.length + p.locals.length ∧ f'.program emitter = .error .counterOverflow ∨
        p.inputs.length + p.locals.length < UInt32.size ∧ ∃ q, f'.program emitter = .ok q ∧
          ∀ args ys, q.execute args = .ok ys ↔ p.execute args = .ok ys) := by
  obtain ⟨f', hattach, hbody, hprogram⟩ := exists_attached_program hv hf hin hout
  refine ⟨f', p.inlined, hattach, hbody, ?_⟩
  rw [hprogram]
  rcases Nat.lt_or_ge p.renumbered.registerCount UInt32.size with hfits | hroom
  · rw [if_pos hfits]
    exact .inr ⟨hfits, p.renumbered, rfl, (renames_renumbered p).agree hv p.valid_renumbered⟩
  · rw [if_neg (Nat.not_lt.mpr hroom)]
    exact .inl ⟨hroom, rfl⟩

/-- A program with a repeated input, an input that is written and is a result, and one that is not used. -/
def shuffled : Program where
  inputs := [⟨5⟩, ⟨2⟩, ⟨5⟩, ⟨1⟩]
  outputs := [⟨6⟩, ⟨2⟩, ⟨6⟩]
  instructions := #[.binary .add ⟨3⟩ ⟨5⟩ ⟨2⟩, .copy ⟨2⟩ ⟨3⟩, .select ⟨6⟩ ⟨5⟩ ⟨4⟩ ⟨3⟩]
  registerCount := 8

theorem valid_shuffled : shuffled.Valid := ⟨by decide, by decide, by decide⟩

def shuffledFunction : Function :=
  ⟨"f", #[⟨"a", .float⟩, ⟨"b", .float⟩, ⟨"c", .float⟩, ⟨"d", .float⟩],
    #[⟨"x", .float⟩, ⟨"y", .float⟩, ⟨"z", .float⟩], []⟩

theorem attached_program_agrees_shuffled :
    ∃ f' emitter q, shuffledFunction.attach (.ofProgram shuffled) = .ok f' ∧ f'.compiled? = some emitter ∧
      f'.program emitter = .ok q ∧ ∀ args ys, q.execute args = .ok ys ↔ shuffled.execute args = .ok ys := by
  obtain ⟨f', emitter, hattach, hbody, hroom | ⟨-, q, hq, hagree⟩⟩ :=
    attached_program_agrees (f := shuffledFunction) valid_shuffled rfl rfl rfl
  · exact absurd hroom.1 (by decide)
  · exact ⟨f', emitter, q, hattach, hbody, hq, hagree⟩

example : shuffled.renumbered = ⟨[⟨0⟩, ⟨1⟩, ⟨2⟩, ⟨3⟩], [⟨5⟩, ⟨1⟩, ⟨5⟩],
    #[.binary .add ⟨4⟩ ⟨2⟩ ⟨1⟩, .copy ⟨1⟩ ⟨4⟩, .select ⟨5⟩ ⟨2⟩ ⟨6⟩ ⟨4⟩], 7⟩ := by
  decide +kernel

/--
The program of a function with a finished program has its registers in order: the inputs are the
first ones, and the others follow in the order of their first mention. It is its own program.
-/
theorem attached_program_is_canonical (hv : p.Valid) (hf : f.compiled? = none)
    (hin : f.inputs.size = p.inputs.length) (hout : f.outputs.size = p.outputs.length) :
    ∃ f' emitter, f.attach (.ofProgram p) = .ok f' ∧ f'.compiled? = some emitter ∧
      (UInt32.size ≤ p.inputs.length + p.locals.length ∧ f'.program emitter = .error .counterOverflow ∨
        ∃ q, f'.program emitter = .ok q ∧ q.inputs = registersFrom 0 p.inputs.length ∧
          q.locals = registersFrom p.inputs.length p.locals.length ∧
          q.registerCount = p.inputs.length + p.locals.length ∧
          ∀ g : Function, g.compiled? = none → g.inputs.size = p.inputs.length →
            g.outputs.size = p.outputs.length →
              ∃ g' emitter', g.attach (.ofProgram q) = .ok g' ∧ g'.compiled? = some emitter' ∧
                g'.program emitter' = .ok q) := by
  obtain ⟨f', hattach, hbody, hprogram⟩ := exists_attached_program hv hf hin hout
  refine ⟨f', p.inlined, hattach, hbody, ?_⟩
  rw [hprogram]
  rcases Nat.lt_or_ge p.renumbered.registerCount UInt32.size with hfits | hroom
  · rw [if_pos hfits]
    refine .inr ⟨p.renumbered, rfl, rfl, p.locals_renumbered, rfl, fun g hg hgin hgout => ?_⟩
    obtain ⟨g', hattach', hbody', hprogram'⟩ := exists_attached_program p.valid_renumbered hg
      (hgin.trans (renames_renumbered p).arity.symm)
      (hgout.trans (by rw [(renames_renumbered p).outputs, List.length_map]))
    refine ⟨g', p.renumbered.inlined, hattach', hbody', ?_⟩
    rw [hprogram', p.renumbered_renumbered, if_pos hfits]
  · rw [if_neg (Nat.not_lt.mpr hroom)]
    exact .inl ⟨hroom, rfl⟩

theorem attached_program_is_canonical_shuffled :
    ∃ f' emitter q, shuffledFunction.attach (.ofProgram shuffled) = .ok f' ∧ f'.compiled? = some emitter ∧
      f'.program emitter = .ok q ∧ q.inputs = registersFrom 0 4 ∧ q.locals = registersFrom 4 3 ∧
        q.registerCount = 7 ∧ ∀ g : Function, g.compiled? = none → g.inputs.size = 4 → g.outputs.size = 3 →
          ∃ g' emitter', g.attach (.ofProgram q) = .ok g' ∧ g'.compiled? = some emitter' ∧
            g'.program emitter' = .ok q := by
  obtain ⟨f', emitter, hattach, hbody, hroom | ⟨q, hq, hinputs, hlocals, hcount, hown⟩⟩ :=
    attached_program_is_canonical (f := shuffledFunction) valid_shuffled rfl rfl rfl
  · exact absurd hroom.1 (by decide)
  · exact ⟨f', emitter, q, hattach, hbody, hq, hinputs, hlocals, hcount, hown⟩

end Function
end Nodeflow
