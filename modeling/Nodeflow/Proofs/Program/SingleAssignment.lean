import Nodeflow.Proofs.Program.Renumbering

/-!
# Single assignment

In a program in single-assignment form every register has its content from one place, which comes
before all places that read it. Such a program never reads a register that nothing has written.
-/

namespace Nodeflow

theorem registersFrom_append (first count more : Nat) :
    registersFrom first count ++ registersFrom (first + count) more = registersFrom first (count + more) := by
  simp [registersFrom, ← List.map_append]

/-! ## Results that may be refused -/

/-- There is a result, or a value of the wrong kind has been found. -/
def Checked {α : Type} (outcome : Except Fault α) (post : α → Prop) : Prop :=
  (∃ a, outcome = .ok a ∧ post a) ∨ ∃ r v content, outcome = .error (.wrongContent r v content)

namespace Checked

variable {α β : Type} {post : α → Prop} {post' : β → Prop}

theorem ok {a : α} (h : post a) : Checked (.ok a) post := .inl ⟨a, rfl, h⟩

theorem wrong (r : Register) (v : Value) (content : RegisterContent) :
    Checked (.error (.wrongContent r v content)) post := .inr ⟨r, v, content, rfl⟩

theorem bind {x : Except Fault α} {f : α → Except Fault β} (hx : Checked x post)
    (hf : ∀ a, post a → Checked (f a) post') : Checked (x >>= f) post' := by
  rcases hx with ⟨a, rfl, ha⟩ | ⟨r, v, content, rfl⟩
  · exact hf a ha
  · exact .wrong r v content

end Checked

namespace Instruction

section

variable {read : Register → Except Fault Value} {r : Register}

theorem checked_read (h : ∃ v, read r = .ok v) : Checked (read r) fun _ => True := by
  obtain ⟨v, hv⟩ := h
  exact .inl ⟨v, hv, trivial⟩

theorem checked_readFloat (h : ∃ v, read r = .ok v) : Checked (readFloat read r) fun _ => True := by
  refine (checked_read h).bind fun v _ => ?_
  cases v with
  | float x => exact .ok trivial
  | _ => exact .wrong ..

theorem checked_readInt (h : ∃ v, read r = .ok v) : Checked (readInt read r) fun _ => True := by
  refine (checked_read h).bind fun v _ => ?_
  cases v with
  | int n => exact .ok trivial
  | _ => exact .wrong ..

/-- An instruction that can read its operands has a value for each destination, or refuses one of them. -/
theorem checked_values {i : Instruction} (h : ∀ r ∈ i.operands, ∃ v, read r = .ok v) :
    Checked (i.values read) fun vs => i.destinations.length = vs.length := by
  cases i with
  | constant dst value => exact .ok rfl
  | copy dst src =>
      exact (checked_read (h src (by simp [operands]))).bind fun v _ => .ok rfl
  | binary op dst lhs rhs =>
      exact (checked_readFloat (h lhs (by simp [operands]))).bind fun a _ =>
        (checked_readFloat (h rhs (by simp [operands]))).bind fun b _ => .ok rfl
  | combineVector dst x y z =>
      exact (checked_readFloat (h x (by simp [operands]))).bind fun a _ =>
        (checked_readFloat (h y (by simp [operands]))).bind fun b _ =>
          (checked_readFloat (h z (by simp [operands]))).bind fun c _ => .ok rfl
  | separateVector x y z src =>
      refine (checked_read (h src (by simp [operands]))).bind fun v _ => ?_
      cases v with
      | vector3 a b c => exact .ok rfl
      | _ => exact .wrong ..
  | select dst condition ifTrue ifFalse =>
      refine (checked_read (h condition (by simp [operands]))).bind fun v _ => ?_
      cases v with
      | bool b =>
          refine (checked_read ?_).bind fun w _ => .ok rfl
          cases b with
          | true => exact h ifTrue (by simp [operands])
          | false => exact h ifFalse (by simp [operands])
      | _ => exact .wrong ..
  | intToFloat dst src =>
      exact (checked_readInt (h src (by simp [operands]))).bind fun n _ => .ok rfl
  | floatToInt dst src =>
      exact (checked_readFloat (h src (by simp [operands]))).bind fun x _ => .ok rfl
  | listSum dst src =>
      refine (checked_read (h src (by simp [operands]))).bind fun v _ => ?_
      cases v with
      | floatList xs => exact .ok rfl
      | _ => exact .wrong ..
  | floatRange dst amount start step =>
      exact (checked_readInt (h amount (by simp [operands]))).bind fun n _ =>
        (checked_readFloat (h start (by simp [operands]))).bind fun a _ =>
          (checked_readFloat (h step (by simp [operands]))).bind fun d _ => .ok rfl

end

variable {regs : Registers} {known : List Register}

/-- All of some registers can be read. -/
def Written (regs : Registers) (rs : List Register) : Prop := ∀ r ∈ rs, ∃ v, regs.read r = .ok v

/-- A step leaves what was written and writes its destinations. -/
theorem checked_step {i : Instruction} (hops : Written regs i.operands)
    (hdst : ∀ d ∈ i.destinations, d.number < regs.size) (hknown : Written regs known) :
    Checked (i.step regs) fun after => after.size = regs.size ∧ Written after (known ++ i.destinations) := by
  rw [step_eq]
  refine (checked_values hops).bind fun vs hlen => ?_
  obtain ⟨after, hafter, hsize⟩ := exists_fill regs (i.destinations.zip vs)
    fun pair hpair => hdst pair.1 (List.of_mem_zip hpair).1
  refine .inl ⟨after, hafter, hsize, fun r hr => ?_⟩
  have hget := getElem?_fill hlen hafter r
  by_cases hd : r ∈ i.destinations
  · have hlt := lastPosition_lt hd
    rw [hlen] at hlt
    rw [if_pos hd, List.getElem?_eq_getElem hlt] at hget
    exact ⟨_, Registers.read_eq_ok_iff.mpr hget⟩
  · obtain ⟨v, hv⟩ := hknown r ((List.mem_append.mp hr).resolve_right hd)
    rw [if_neg hd, Registers.read_eq_ok_iff.mp hv] at hget
    exact ⟨v, Registers.read_eq_ok_iff.mpr hget⟩

theorem checked_runAll {is : List Instruction} (hknown : Written regs known)
    (hdst : ∀ i ∈ is, ∀ d ∈ i.destinations, d.number < regs.size)
    (hops : ∀ before i after, is = before ++ i :: after →
      ∀ r ∈ i.operands, r ∈ known ∨ r ∈ before.flatMap destinations) :
    Checked (runAll is regs) fun after => Written after (known ++ is.flatMap destinations) := by
  -- what is known to be written grows by the destinations of each instruction
  induction is generalizing regs known with
  | nil => exact .ok (by simpa using hknown)
  | cons i is ih =>
      have hfirst : Written regs i.operands := fun r hr =>
        hknown r (by simpa using hops [] i is rfl r hr)
      rw [runAll_cons, List.flatMap_cons, ← List.append_assoc]
      refine (checked_step hfirst (hdst i (by simp)) hknown).bind fun regs' h => ?_
      refine ih h.2 (fun j hj d hd => h.1 ▸ hdst j (by simp [hj]) d hd) fun before j after hsplit r hr => ?_
      have hr' := hops (i :: before) j after (by rw [hsplit, List.cons_append]) r hr
      rwa [List.flatMap_cons, List.mem_append, ← or_assoc, ← List.mem_append] at hr'

end Instruction

namespace Program

open Instruction

variable {p : Program} {args : List Value}

/-- The registers that instructions write, in order. -/
def writes (p : Program) : List Register := p.instructions.toList.flatMap destinations

/-- The inputs come first and are not written, and every other register is written once, before it is read. -/
structure SingleAssignment (p : Program) : Prop where
  valid : p.Valid
  inputs : p.inputs = registersFrom 0 p.inputs.length
  keeps : p.KeepsInputs
  once : ∀ r : Register, r ∉ p.inputs → r.number < p.registerCount → p.writes.count r = 1
  before : ∀ (before : List Instruction) (i : Instruction) (after : List Instruction),
    p.instructions.toList = before ++ i :: after →
      ∀ r ∈ i.operands, r ∈ p.inputs ∨ r ∈ before.flatMap destinations
  outputs : ∀ r ∈ p.outputs, r ∈ p.inputs ∨ r ∈ p.writes

namespace SingleAssignment

theorem checked_execute (h : p.SingleAssignment) (hlen : args.length = p.inputs.length) :
    Checked (p.execute args) fun _ => True := by
  obtain ⟨loaded, hload, hsize⟩ := exists_load h.valid args
  have hloaded : Written loaded p.inputs := fun r hr => by
    have hlt : lastPosition r p.inputs < args.length := hlen ▸ lastPosition_lt hr
    exact ⟨_, (read_load_iff hlen hload).mpr ⟨hr, List.getElem?_eq_getElem hlt⟩⟩
  have hrun : Checked (runAll p.instructions.toList loaded) fun after => Written after (p.inputs ++ p.writes) := by
    refine checked_runAll hloaded (fun i hi d hd => ?_) h.before
    rw [hsize]
    exact h.valid.instructions i (by simpa using hi) d (List.mem_append_left _ hd)
  unfold execute
  rw [if_neg (not_not_intro hlen), hload, ok_bind, ← Array.foldlM_toList]
  refine hrun.bind fun final hfinal => ?_
  obtain ⟨ys, hys⟩ := exists_forall₂ fun r hr => hfinal r (List.mem_append.mpr (h.outputs r hr))
  exact .inl ⟨ys, mapM_eq_ok_iff.mpr hys, trivial⟩

/-- A run fails for the number or the kinds of its arguments alone. -/
theorem fault_cases (h : p.SingleAssignment) {e : Fault} (he : p.execute args = .error e) :
    (∃ given expected, e = .argumentCount given expected) ∨ ∃ r v content, e = .wrongContent r v content := by
  by_cases hlen : args.length = p.inputs.length
  · rcases h.checked_execute hlen with ⟨ys, hys, -⟩ | ⟨r, v, content, hwrong⟩
    · rw [he] at hys
      cases hys
    · rw [he] at hwrong
      exact .inr ⟨r, v, content, Except.error.inj hwrong⟩
  · unfold execute at he
    rw [if_pos hlen] at he
    exact .inl ⟨_, _, (Except.error.inj he).symm⟩

end SingleAssignment

/-! ## Registers in order -/

end Program

/-- Instructions write consecutive registers, each from registers before its own. -/
inductive Consecutive : Nat → List Instruction → Nat → Prop
  | nil (first : Nat) : Consecutive first [] first
  | cons {first count last : Nat} {i : Instruction} {rest : List Instruction}
      (hdst : i.destinations = registersFrom first count) (hops : ∀ r ∈ i.operands, r.number < first)
      (hrest : Consecutive (first + count) rest last) : Consecutive first (i :: rest) last

namespace Consecutive

variable {first middle last : Nat} {is js before after : List Instruction} {i : Instruction}

theorem append (h : Consecutive first is middle) (h' : Consecutive middle js last) :
    Consecutive first (is ++ js) last := by
  induction h with
  | nil => exact h'
  | cons hdst hops _ ih => exact .cons hdst hops (ih h')

theorem concat (h : Consecutive first is middle) {count : Nat} (hdst : i.destinations = registersFrom middle count)
    (hops : ∀ r ∈ i.operands, r.number < middle) : Consecutive first (is ++ [i]) (middle + count) :=
  h.append (.cons hdst hops (.nil _))

theorem exists_split (h : Consecutive first (before ++ i :: after) last) :
    ∃ middle, Consecutive first before middle ∧ Consecutive middle (i :: after) last := by
  induction before generalizing first with
  | nil => exact ⟨first, .nil first, h⟩
  | cons j before ih =>
      cases h with
      | cons hdst hops hrest =>
          obtain ⟨middle, hbefore, hafter⟩ := ih hrest
          exact ⟨middle, .cons hdst hops hbefore, hafter⟩

theorem exists_destinations (h : Consecutive first is last) : ∃ count, last = first + count ∧
    is.flatMap Instruction.destinations = registersFrom first count := by
  induction h with
  | nil => exact ⟨0, rfl, rfl⟩
  | @cons first count last i rest hdst _ _ ih =>
      obtain ⟨more, rfl, hrest⟩ := ih
      exact ⟨count + more, Nat.add_assoc .., by rw [List.flatMap_cons, hdst, hrest, registersFrom_append]⟩

theorem mem_destinations_iff (h : Consecutive first is last) {r : Register} :
    r ∈ is.flatMap Instruction.destinations ↔ first ≤ r.number ∧ r.number < last := by
  obtain ⟨count, rfl, hdst⟩ := h.exists_destinations
  rw [hdst, mem_registersFrom_iff]

theorem operands_lt (h : Consecutive first is last) (hi : i ∈ is) {r : Register} (hr : r ∈ i.operands) :
    r.number < last := by
  obtain ⟨before, after, rfl⟩ := List.append_of_mem hi
  obtain ⟨middle, -, hafter⟩ := h.exists_split
  obtain ⟨count, rfl, -⟩ := hafter.exists_destinations
  cases hafter with
  | cons _ hops _ => exact Nat.lt_of_lt_of_le (hops r hr) (Nat.le_add_right _ _)

theorem eraseDups_registers {k : Nat} (h : Consecutive (first + k) is last) :
    (registersFrom first k ++ (is.flatMap Instruction.registers).filter fun r => first ≤ r.number).eraseDups =
      registersFrom first (last - first) := by
  -- what is met before an instruction are the registers up to its own, so its operands add nothing
  generalize hmiddle : first + k = middle at h
  induction h generalizing k with
  | nil =>
      subst hmiddle
      simp [eraseDups_of_nodup (nodup_registersFrom _ _)]
  | @cons middle count last i rest hdst hops _ ih =>
      subst hmiddle
      have hown : i.destinations.filter (fun r => first ≤ r.number) = registersFrom (first + k) count := by
        rw [hdst, List.filter_eq_self]
        intro r hr
        have hr := (mem_registersFrom_iff.mp hr).1
        exact decide_eq_true (by omega)
      have hmet : i.operands.filter (fun r => first ≤ r.number) ⊆ registersFrom first (k + count) := by
        intro r hr
        obtain ⟨hr, hge⟩ := List.mem_filter.mp hr
        have hlt := hops r hr
        exact mem_registersFrom_iff.mpr ⟨of_decide_eq_true hge, by omega⟩
      rw [List.flatMap_cons, Instruction.registers, List.filter_append, List.filter_append, hown,
        ← List.append_assoc, ← List.append_assoc, registersFrom_append, eraseDups_append_of_subset hmet]
      exact ih (Nat.add_assoc ..).symm

end Consecutive

namespace Program

/-- The inputs are the first registers, and instructions write the others one after another. -/
structure InOrder (p : Program) : Prop where
  inputs : p.inputs = registersFrom 0 p.inputs.length
  code : Consecutive p.inputs.length p.instructions.toList p.registerCount
  outputs : ∀ r ∈ p.outputs, r.number < p.registerCount

namespace InOrder

variable {p : Program} {r : Register}

theorem mem_inputs_iff (h : p.InOrder) : r ∈ p.inputs ↔ r.number < p.inputs.length := by
  conv_lhs => rw [h.inputs]
  rw [mem_registersFrom_iff]
  omega

theorem mem_writes_iff (h : p.InOrder) :
    r ∈ p.writes ↔ p.inputs.length ≤ r.number ∧ r.number < p.registerCount := h.code.mem_destinations_iff

theorem inputs_le (h : p.InOrder) : p.inputs.length ≤ p.registerCount := by
  obtain ⟨count, hcount, -⟩ := h.code.exists_destinations
  omega

theorem valid (h : p.InOrder) : p.Valid where
  inputs r hr := Nat.lt_of_lt_of_le (h.mem_inputs_iff.mp hr) h.inputs_le
  outputs := h.outputs
  instructions i hi r hr := by
    have hi' : i ∈ p.instructions.toList := by simpa using hi
    rcases List.mem_append.mp hr with hd | ho
    · exact (h.mem_writes_iff.mp (List.mem_flatMap.mpr ⟨i, hi', hd⟩)).2
    · exact h.code.operands_lt hi' ho

theorem singleAssignment (h : p.InOrder) : p.SingleAssignment where
  valid := h.valid
  inputs := h.inputs
  keeps i hi d hd hin := by
    have hwritten := h.mem_writes_iff.mp (List.mem_flatMap.mpr ⟨i, by simpa using hi, hd⟩)
    exact Nat.not_lt.mpr hwritten.1 (h.mem_inputs_iff.mp hin)
  once r hout hlt := by
    obtain ⟨count, -, hwrites⟩ := h.code.exists_destinations
    have hnodup : p.writes.Nodup := by
      rw [writes, hwrites]
      exact nodup_registersFrom _ _
    refine List.count_eq_one_of_mem hnodup (h.mem_writes_iff.mpr ⟨?_, hlt⟩)
    exact Nat.not_lt.mp fun hin => hout (h.mem_inputs_iff.mpr hin)
  before before i after hsplit r hr := by
    obtain ⟨middle, hbefore, hafter⟩ := (hsplit ▸ h.code).exists_split
    rw [h.mem_inputs_iff, hbefore.mem_destinations_iff]
    cases hafter with
    | cons _ hops _ =>
        have hlt := hops r hr
        omega
  outputs r hr := by
    have hlt := h.outputs r hr
    rw [h.mem_inputs_iff, h.mem_writes_iff]
    omega

theorem locals_eq (h : p.InOrder) : p.locals = registersFrom p.inputs.length (p.registerCount - p.inputs.length) := by
  have hfilter : p.mentions.filter (· ∉ p.inputs) = p.mentions.filter fun r => p.inputs.length ≤ r.number :=
    List.filter_congr fun r _ => by simp [h.mem_inputs_iff]
  have hcode := Consecutive.eraseDups_registers (k := 0) h.code
  have hmet : p.outputs.filter (fun r => p.inputs.length ≤ r.number) ⊆
      (p.instructions.toList.flatMap Instruction.registers).filter fun r => p.inputs.length ≤ r.number := by
    intro r hr
    obtain ⟨hr, hge⟩ := List.mem_filter.mp hr
    obtain ⟨i, hi, hd⟩ := List.mem_flatMap.mp (h.mem_writes_iff.mpr ⟨of_decide_eq_true hge, h.outputs r hr⟩)
    exact List.mem_filter.mpr ⟨List.mem_flatMap.mpr ⟨i, hi, List.mem_append_left _ hd⟩, hge⟩
  have houts := eraseDups_append_of_subset hmet []
  rw [List.append_nil, List.append_nil, ← List.filter_append] at houts
  rw [locals, hfilter, mentions, houts]
  exact hcode

/-- There is nothing to renumber in a program whose registers are in order. -/
theorem renumbered_eq (h : p.InOrder) : p.renumbered = p := by
  have hle := h.inputs_le
  refine renumbered_eq_self h.inputs ?_ ?_
  · rw [h.locals_eq, length_registersFrom]
  · rw [h.locals_eq, length_registersFrom]
    omega

end InOrder

end Program

end Nodeflow
