import Nodeflow.Proofs.Generation.Function
import Nodeflow.Proofs.Lowering.Circles
import Nodeflow.Proofs.Tree.Ordering

/-!
# Trees that have a function

What can be built in the editor can be compiled: a tree of offered nodes has a function exactly if it
has an order.
-/

namespace Nodeflow

namespace Tree

open Snapshot Lower

variable {t : Tree}

theorem Edited.functional (h : t.Edited Edit.Offered) (harguments : (t.nodesOfType Idname.functionInput).length ≤ 1)
    (hresults : (t.nodesOfType Idname.functionOutput).length ≤ 1) : t.Functional :=
  ⟨h.wellFormed, fun _ hn => h.offered hn, harguments, hresults⟩

/-- A tree of offered nodes has a data graph exactly if it has an order. -/
theorem Functional.lower_cases (h : t.Functional) :
    (∃ lowered, (ofTree t).lower {} (.builtin {}) = .ok (.ok lowered)) ∧ (∃ order, t.topologicalOrder? = some order) ∨
      (∃ e, (ofTree t).lower {} (.builtin {}) = .ok (.error e)) ∧ t.topologicalOrder? = none := by
  have horder := h.wellFormed.exists_order_iff
  rcases Snapshot.lower_cases (copies_ofTree t) {} with ⟨lowered, d, hlower, hd⟩ | ⟨e, he, hwhy⟩
  · obtain ⟨rank, hrank⟩ := hd.completed.typed.exists_ranked hd.build
    exact .inl ⟨⟨lowered, hlower⟩, horder.mpr (h.exists_treeRank hd.completed hrank)⟩
  · refine .inr ⟨⟨e, he⟩, ?_⟩
    by_contra hsome
    obtain ⟨r, hr⟩ := horder.mp (Option.ne_none_iff_exists'.mp hsome)
    rcases hwhy with hrefused | ⟨d, hd, ⟨s, hs⟩ | hcircle⟩
    · exact h.not_refused hrefused
    · exact h.not_unlinked hd hs
    · exact hcircle (h.exists_dataRank hd hr)

theorem not_clash_default (s : Snapshot) : ¬s.Clash {} := fun h => absurd h.1 (by decide)

theorem Functional.exists_generate (h : t.Functional) {order : List NodeId} (horder : t.topologicalOrder? = some order)
    (hsize : t.registerBound < UInt32.size) : ∃ p, t.generate {} (.builtin {}) = .ok (some p) := by
  rcases h.lower_cases with ⟨⟨lowered, hlower⟩, -⟩ | ⟨-, hnone⟩
  · exact exists_generate_of_lowers hlower (not_clash_default _) hsize
  · rw [horder] at hnone
    cases hnone

theorem generate_eq_none_iff {config : Config} {inserters : Inserters} : t.generate config inserters = .ok none ↔
    ∃ e, (ofTree t).lower config inserters = .ok (.error e) := by
  simp only [generate, bind_eq_ok_iff]
  constructor
  · rintro ⟨result, hlower, h⟩
    cases result with
    | error e => exact ⟨e, hlower⟩
    | ok lowered =>
        simp only [bind_eq_ok_iff, pure_eq_ok_iff] at h
        obtain ⟨_, _, _, _, _, _, h⟩ := h
        cases h
  · rintro ⟨e, he⟩
    exact ⟨_, he, rfl⟩

/--
A tree that is edited with offered nodes, with one node for each side of the interface, is turned into
a function exactly if it has an order.
-/
theorem edited_generates_iff (h : t.Edited Edit.Offered) (harguments : (t.nodesOfType Idname.functionInput).length ≤ 1)
    (hresults : (t.nodesOfType Idname.functionOutput).length ≤ 1) :
    (t.generate {} (.builtin {}) = .ok none ↔ t.topologicalOrder? = none) ∧
      (t.registerBound < UInt32.size →
        ((∃ p, t.generate {} (.builtin {}) = .ok (some p)) ↔ ∃ order, t.topologicalOrder? = some order)) := by
  have hfunctional := h.functional harguments hresults
  have hnone : t.generate {} (.builtin {}) = .ok none ↔ t.topologicalOrder? = none := by
    rw [generate_eq_none_iff]
    rcases hfunctional.lower_cases with ⟨⟨lowered, hlower⟩, order, horder⟩ | ⟨he, hnone⟩
    · rw [hlower, horder]
      simp
    · exact iff_of_true he hnone
  refine ⟨hnone, fun hsize => ⟨fun ⟨p, hp⟩ => ?_, fun ⟨order, horder⟩ => hfunctional.exists_generate horder hsize⟩⟩
  rw [← Option.ne_none_iff_exists']
  intro h
  rw [hnone.mpr h] at hp
  cases hp

/-! The sum of both parameters has an order; two sums that wait for each other have none. -/

theorem functional_mixedSum : mixedSum.Functional :=
  edited_mixedSum.functional (by decide +kernel) (by decide +kernel)

theorem exists_order_mixedSum : ∃ order, mixedSum.topologicalOrder? = some order := by
  rw [functional_mixedSum.wellFormed.exists_order_iff]
  refine ⟨fun id => if id = Supply.nodeId 0 then 0 else if id = Supply.nodeId 1 then 1 else 2, ?_⟩
  decide +kernel

theorem exists_generate_mixedSum : ∃ p, mixedSum.generate {} (.builtin {}) = .ok (some p) := by
  obtain ⟨order, horder⟩ := exists_order_mixedSum
  exact functional_mixedSum.exists_generate horder (by decide +kernel)

theorem topologicalOrder?_sumsInCircle : sumsInCircle.topologicalOrder? = none := by
  by_contra hsome
  have hno := edited_sumsInCircle.wellFormed.exists_order_iff_not_circle.mp (Option.ne_none_iff_exists'.mp hsome)
  exact hno _ circle_sumsInCircle

theorem edited_generates_iff_mixedSum : mixedSum.Edited Edit.Offered ∧ sumsInCircle.Edited Edit.Offered ∧
    (∃ p, mixedSum.generate {} (.builtin {}) = .ok (some p)) ∧ sumsInCircle.generate {} (.builtin {}) = .ok none := by
  have hsum := edited_generates_iff edited_mixedSum (by decide +kernel) (by decide +kernel)
  have hcircle := edited_generates_iff edited_sumsInCircle (by decide +kernel) (by decide +kernel)
  exact ⟨edited_mixedSum, edited_sumsInCircle, (hsum.2 (by decide +kernel)).mpr exists_order_mixedSum,
    hcircle.1.mpr topologicalOrder?_sumsInCircle⟩

end Tree

end Nodeflow
