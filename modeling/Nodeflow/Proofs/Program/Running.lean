import Nodeflow.Program.Basic
import Nodeflow.Proofs.Fault

/-!
# Running instructions

An instruction computes values from what it reads, and writes them to its destinations. What it
computes is the same for all registers that it reads the same from.
-/

namespace Nodeflow

namespace Registers

variable {regs regs' : Registers} {r s : Register} {v : Value}

theorem read_eq_ok_iff : regs.read r = .ok v ↔ regs[r.number]? = some (some v) := by
  simp only [read, bind_eq_ok_iff, elementAt_eq_ok_iff]
  constructor
  · rintro ⟨content, hc, h⟩
    cases content with
    | none => cases h
    | some w =>
        cases h
        exact hc
  · intro h
    exact ⟨some v, h, rfl⟩

theorem write_eq_ok_iff : regs.write r v = .ok regs' ↔
    r.number < regs.size ∧ regs.setIfInBounds r.number (some v) = regs' := by
  unfold write
  split <;> simp [*]

theorem size_write (h : regs.write r v = .ok regs') : regs'.size = regs.size := by
  obtain ⟨-, rfl⟩ := write_eq_ok_iff.mp h
  simp

theorem getElem?_write (h : regs.write r v = .ok regs') (i : Nat) :
    regs'[i]? = if i = r.number then some (some v) else regs[i]? := by
  obtain ⟨hlt, rfl⟩ := write_eq_ok_iff.mp h
  rw [Array.getElem?_setIfInBounds]
  by_cases hi : i = r.number
  · simp [hi, hlt]
  · rw [if_neg (Ne.symm hi), if_neg hi]

def writeAll (regs : Registers) (writes : List (Register × Value)) : Except Fault Registers :=
  writes.foldlM (fun regs (r, v) => regs.write r v) regs

theorem writeAll_cons (w : Register × Value) (writes : List (Register × Value)) :
    regs.writeAll (w :: writes) = regs.write w.1 w.2 >>= fun regs => regs.writeAll writes := by
  rw [writeAll, List.foldlM_cons]
  rfl

@[simp] theorem writeAll_singleton (r : Register) (v : Value) :
    regs.writeAll [(r, v)] = regs.write r v := by
  simp [writeAll]

end Registers

namespace Instruction

def readFloat (read : Register → Except Fault Value) (r : Register) : Except Fault Binary32 := do
  match ← read r with
  | .float x => .ok x
  | v => .error (.wrongContent r v .float)

def readInt (read : Register → Except Fault Value) (r : Register) : Except Fault Int32 := do
  match ← read r with
  | .int n => .ok n
  | v => .error (.wrongContent r v .int)

/-- The values an instruction computes for its destinations, from what it reads. -/
def values (read : Register → Except Fault Value) : Instruction → Except Fault (List Value)
  | constant _ value => .ok [value]
  | copy _ src => do return [← read src]
  | binary op _ lhs rhs => do
    let a ← readFloat read lhs
    let b ← readFloat read rhs
    return [.float (op.apply a b)]
  | combineVector _ x y z => do
    let a ← readFloat read x
    let b ← readFloat read y
    let c ← readFloat read z
    return [.vector3 a b c]
  | separateVector _ _ _ src => do
    match ← read src with
    | .vector3 a b c => .ok [.float a, .float b, .float c]
    | v => .error (.wrongContent src v .vector)
  | select _ condition ifTrue ifFalse => do
    match ← read condition with
    | .bool b => return [← read (if b then ifTrue else ifFalse)]
    | v => .error (.wrongContent condition v .bool)
  | intToFloat _ src => do return [.float (.ofInt (← readInt read src).toInt)]
  | floatToInt _ src => do return [.int (← readFloat read src).toInt32]
  | listSum _ src => do
    match ← read src with
    | .floatList xs => .ok [.float (.sum xs)]
    | v => .error (.wrongContent src v .floatList)
  | floatRange _ amount start step => do
    let n ← readInt read amount
    let a ← readFloat read start
    let d ← readFloat read step
    return [.floatList (Nodeflow.floatRange n a d)]

theorem readFloat_read (regs : Registers) (r : Register) :
    readFloat regs.read r = regs.readFloat r := rfl

theorem readInt_read (regs : Registers) (r : Register) :
    readInt regs.read r = regs.readInt r := rfl

theorem readFloat_eq_ok_iff {read : Register → Except Fault Value} {r : Register} {x : Binary32} :
    readFloat read r = .ok x ↔ read r = .ok (.float x) := by
  rw [readFloat, bind_eq_ok_iff]
  constructor
  · rintro ⟨v, hv, h⟩
    cases v with
    | float y =>
        cases h
        exact hv
    | _ => cases h
  · intro h
    exact ⟨_, h, rfl⟩

theorem readInt_eq_ok_iff {read : Register → Except Fault Value} {r : Register} {n : Int32} :
    readInt read r = .ok n ↔ read r = .ok (.int n) := by
  rw [readInt, bind_eq_ok_iff]
  constructor
  · rintro ⟨v, hv, h⟩
    cases v with
    | int k =>
        cases h
        exact hv
    | _ => cases h
  · intro h
    exact ⟨_, h, rfl⟩

theorem step_eq (i : Instruction) (regs : Registers) :
    i.step regs = i.values regs.read >>= fun vs => regs.writeAll (i.destinations.zip vs) := by
  cases i with
  | constant dst value => exact (Registers.writeAll_singleton dst value).symm
  | copy | binary | combineVector | intToFloat | floatToInt | floatRange =>
      simp [step, values, destinations, readFloat_read, readInt_read]
  | separateVector x y z src =>
      simp only [step, values, destinations, Registers.readVector, bind_assoc]
      congr 1
      funext v
      cases v with
      | vector3 a b c => simp [Registers.writeAll]
      | _ => rfl
  | select dst condition ifTrue ifFalse =>
      simp only [step, values, destinations, Registers.readBool, bind_assoc]
      congr 1
      funext v
      cases v with
      | bool b => simp
      | _ => rfl
  | listSum dst src =>
      simp only [step, values, destinations, Registers.readList, bind_assoc]
      congr 1
      funext v
      cases v with
      | floatList xs => simp
      | _ => rfl

def runAll (instructions : List Instruction) (regs : Registers) : Except Fault Registers :=
  instructions.foldlM (fun regs i => i.step regs) regs

theorem runAll_cons (i : Instruction) (rest : List Instruction) (regs : Registers) :
    runAll (i :: rest) regs = i.step regs >>= runAll rest := by
  rw [runAll, List.foldlM_cons]
  rfl

theorem runAll_append (first rest : List Instruction) (regs : Registers) :
    runAll (first ++ rest) regs = runAll first regs >>= runAll rest := by
  rw [runAll, List.foldlM_append]
  rfl

end Instruction

end Nodeflow
