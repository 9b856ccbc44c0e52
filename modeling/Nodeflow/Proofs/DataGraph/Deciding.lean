import Nodeflow.Builtin.Arithmetic
import Nodeflow.Proofs.DataGraph.Building

/-!
# When data graphs are finished

However a graph has been put together, finishing it gives an answer. The first input without an
origin is reported before anything else; a graph without such inputs is finished exactly if its links
run in no circle, and a circle is reported by a node that lies on one.
-/

namespace Nodeflow

open Relation

namespace DataGraphBuilder

variable {b : DataGraphBuilder}

/-- Finishing reports the first input without an origin, then a circle, and succeeds if there is neither. -/
theorem build_decides (h : Reachable b) : ∃ answer, b.build = .ok answer ∧
    (∀ i, b.FirstUnlinked i → ∃ n k f p, b.place (.input i) = .ok (n, k) ∧ b.function n = .ok f ∧
      f.inputs[k]? = some p ∧ answer = .error (.unlinkedInput f.name p.name)) ∧
    ((∀ i, ¬Unlinked b i) → ((∃ g, answer = .ok g) ↔ ∀ n, ¬TransGen b.Feeds n n)) ∧
    ((∀ i, ¬Unlinked b i) → (∃ n, TransGen b.Feeds n n) → ∃ name, answer = .error (.cycle name)) ∧
    ∀ name, answer = .error (.cycle name) →
      ∃ n f, TransGen b.Feeds n n ∧ b.function n = .ok f ∧ f.name = name := by
  obtain ⟨answer, hbuild, hdecides⟩ := h.wellTyped.exists_decides
  refine ⟨answer, hbuild, ?_⟩
  cases hdecides with
  | @unlinked i n k f p hfirst hi hf hp =>
      refine ⟨fun j hj => ?_, fun hall => absurd hfirst.1 (hall i), fun hall => absurd hfirst.1 (hall i), nofun⟩
      have hij : i.index = j.index := Nat.le_antisymm (hfirst.2 j hj.1) (hj.2 i hfirst.1)
      obtain rfl : i = j := by
        cases i
        cases j
        exact congrArg InputSocket.mk hij
      exact ⟨n, k, f, p, hi, hf, hp, rfl⟩
  | @circle n f hall hn hf =>
      refine ⟨fun i hi => absurd hi.1 (hall i), fun _ => iff_of_false nofun fun hno => hno n hn, fun _ _ => ⟨_, rfl⟩, ?_⟩
      rintro _ ⟨⟩
      exact ⟨n, f, hn, hf, rfl⟩
  | finished hall hno =>
      exact ⟨fun i hi => absurd hi.1 (hall i), fun _ => iff_of_true ⟨_, rfl⟩ hno,
        fun _ ⟨n, hn⟩ => absurd hn (hno n), nofun⟩

/-- Two sums, each of the other one and itself. -/
def crossedSums : DataGraphBuilder :=
  let sums : DataGraphBuilder := (insert (insert {} Builtin.addFloats none).2 Builtin.addFloats none).2
  (((sums.record ⟨1⟩ ⟨0⟩).record ⟨0⟩ ⟨1⟩).record ⟨0⟩ ⟨2⟩).record ⟨1⟩ ⟨3⟩

theorem reachable_crossedSums : Reachable crossedSums := by
  have hsums := (Reachable.empty.insert Builtin.addFloats none).insert Builtin.addFloats none
  have hfirst := hsums.link ⟨1⟩ ⟨0⟩ (by with_unfolding_all rfl)
  have hsecond := hfirst.link ⟨0⟩ ⟨1⟩ (by with_unfolding_all rfl)
  have hthird := hsecond.link ⟨0⟩ ⟨2⟩ (by with_unfolding_all rfl)
  exact hthird.link ⟨1⟩ ⟨3⟩ (by with_unfolding_all rfl)

theorem build_decides_crossedSums : Reachable crossedSums ∧ (∀ i, ¬Unlinked crossedSums i) ∧
    TransGen crossedSums.Feeds ⟨0⟩ ⟨0⟩ ∧ crossedSums.build = .ok (.error (.cycle "Add Floats")) := by
  have hlinked : ∀ i, ¬Unlinked crossedSums i := by
    rintro i ⟨e, he, hnone⟩
    have hall : crossedSums.inputs.all fun e => e.origin.isSome := by with_unfolding_all rfl
    have hsome := (Array.all_eq_true'.mp hall) e (Array.mem_of_getElem? he)
    rw [hnone] at hsome
    cases hsome
  have horigin : HasOrigin crossedSums ⟨1⟩ ⟨0⟩ := ⟨⟨⟨0⟩, 1, some ⟨0⟩⟩, by with_unfolding_all rfl, rfl⟩
  have hcircle : TransGen crossedSums.Feeds ⟨0⟩ ⟨0⟩ :=
    .single ⟨⟨0⟩, ⟨1⟩, 0, 1, by with_unfolding_all rfl, by with_unfolding_all rfl, horigin⟩
  obtain ⟨answer, hbuild, -, -, hrefused, hname⟩ := build_decides reachable_crossedSums
  obtain ⟨name, rfl⟩ := hrefused hlinked ⟨_, hcircle⟩
  obtain ⟨n, f, -, hf, rfl⟩ := hname name rfl
  have hsum : f.name = "Add Floats" := by
    rcases n with ⟨_ | _ | n⟩ <;> cases hf <;> rfl
  exact ⟨reachable_crossedSums, hlinked, hcircle, by rw [hbuild, hsum]⟩

end DataGraphBuilder

end Nodeflow
