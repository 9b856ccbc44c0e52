import Nodeflow.Program.Basic
import Nodeflow.Proofs.Fault
import Mathlib.Data.List.Nodup
import Mathlib.Data.List.Perm.Subperm

/-!
# Filling registers

Contents are given to registers one after another. A register that is given several keeps the last.
-/

namespace Nodeflow

theorem Register.eq_of_number {r s : Register} (h : r.number = s.number) : r = s := by
  cases r
  cases s
  cases h
  rfl

/-- Registers with consecutive numbers. -/
def registersFrom (first count : Nat) : List Register := (List.range' first count).map .mk

@[simp] theorem length_registersFrom (first count : Nat) :
    (registersFrom first count).length = count := by
  simp [registersFrom]

theorem mem_registersFrom_iff {first count : Nat} {r : Register} :
    r ∈ registersFrom first count ↔ first ≤ r.number ∧ r.number < first + count := by
  simp only [registersFrom, List.mem_map, List.mem_range'_1]
  constructor
  · rintro ⟨i, hi, rfl⟩
    exact hi
  · intro h
    exact ⟨r.number, h, rfl⟩

theorem nodup_registersFrom (first count : Nat) : (registersFrom first count).Nodup := by
  refine List.Nodup.map (fun i j h => ?_) List.nodup_range'
  cases h
  rfl

theorem getElem?_registersFrom {first count k : Nat} (h : k < count) :
    (registersFrom first count)[k]? = some ⟨first + k⟩ := by
  simp [registersFrom, h]

theorem length_le_of_nodup {rs : List Register} {count : Nat} (hnodup : rs.Nodup)
    (hlt : ∀ r ∈ rs, r.number < count) : rs.length ≤ count := by
  have hsub : rs ⊆ registersFrom 0 count := fun r hr =>
    mem_registersFrom_iff.mpr ⟨Nat.zero_le _, by simpa using hlt r hr⟩
  simpa using (hnodup.subperm hsub).length_le

/-- The last position of a register in a list. -/
def lastPosition (r : Register) : List Register → Nat
  | [] => 0
  | _ :: rest => if r ∈ rest then lastPosition r rest + 1 else 0

section

variable {r : Register} {rs : List Register}

theorem getElem?_lastPosition (h : r ∈ rs) : rs[lastPosition r rs]? = some r := by
  induction rs with
  | nil => cases h
  | cons s rest ih =>
      rw [lastPosition]
      split
      case isTrue hrest => simpa using ih hrest
      case isFalse hrest =>
          obtain rfl := (List.mem_cons.mp h).resolve_right hrest
          rfl

theorem lastPosition_lt (h : r ∈ rs) : lastPosition r rs < rs.length :=
  (List.getElem?_eq_some_iff.mp (getElem?_lastPosition h)).1

theorem lastPosition_of_nodup (hnodup : rs.Nodup) {k : Nat} (hk : rs[k]? = some r) :
    lastPosition r rs = k := by
  obtain ⟨hlt, rfl⟩ := List.getElem?_eq_some_iff.mp hk
  obtain ⟨hlt', heq⟩ := List.getElem?_eq_some_iff.mp (getElem?_lastPosition (List.getElem_mem hlt))
  exact hnodup.getElem_inj_iff.mp heq

end

section

variable {α : Type} {slots filled : Array (Option α)} {rs : List Register} {xs : List α}

/-- Gives contents to registers, in order. -/
def fill (slots : Array (Option α)) (pairs : List (Register × α)) : Except Fault (Array (Option α)) :=
  pairs.foldlM
    (fun slots (r, x) =>
      if r.number < slots.size then .ok (slots.setIfInBounds r.number (some x))
      else .error (.outOfBounds slots.size r.number))
    slots

theorem fill_cons_eq_ok_iff {r : Register} {x : α} {pairs : List (Register × α)} :
    fill slots ((r, x) :: pairs) = .ok filled ↔
      r.number < slots.size ∧ fill (slots.setIfInBounds r.number (some x)) pairs = .ok filled := by
  rw [fill, List.foldlM_cons]
  dsimp only
  split
  · simp [*, fill]
  · simp [*]

theorem exists_fill (slots : Array (Option α)) (pairs : List (Register × α))
    (h : ∀ pair ∈ pairs, pair.1.number < slots.size) :
    ∃ filled, fill slots pairs = .ok filled ∧ filled.size = slots.size := by
  induction pairs generalizing slots with
  | nil => exact ⟨slots, rfl, rfl⟩
  | cons pair pairs ih =>
      obtain ⟨filled, hfill, hsize⟩ := ih (slots.setIfInBounds pair.1.number (some pair.2))
        fun other hother => by simpa using h other (by simp [hother])
      exact ⟨filled, fill_cons_eq_ok_iff.mpr ⟨h pair (by simp), hfill⟩, by simpa using hsize⟩

theorem getElem?_fill (hlen : rs.length = xs.length) (h : fill slots (rs.zip xs) = .ok filled)
    (r : Register) : filled[r.number]? =
      if r ∈ rs then xs[lastPosition r rs]?.map some else slots[r.number]? := by
  induction rs generalizing slots xs with
  | nil =>
      cases h
      simp
  | cons s rs ih =>
      cases xs with
      | nil => cases hlen
      | cons x xs =>
          obtain ⟨hs, h⟩ := fill_cons_eq_ok_iff.mp h
          rw [ih (Nat.succ.inj hlen) h, lastPosition]
          by_cases hr : r ∈ rs
          · simp [hr]
          · rw [if_neg hr, if_neg hr, Array.getElem?_setIfInBounds]
            by_cases hrs : r = s
            · simp [hrs, hs]
            · rw [if_neg fun heq => hrs (Register.eq_of_number heq.symm), if_neg (by simp [hr, hrs])]

end

end Nodeflow
