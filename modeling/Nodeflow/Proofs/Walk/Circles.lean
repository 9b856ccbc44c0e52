import Nodeflow.Proofs.Walk.Order

/-!
# Circles that walks find

Each node on the path of a walk is reached from all nodes further out. So an arrow that leads back to
the path closes a circle, and a walk over all nodes of a graph finds a circle exactly if there is one.
-/

namespace Nodeflow

open Relation

theorem not_transGen_self {α : Type} {r : α → α → Prop} (rank : α → Nat) (h : ∀ a b, r a b → rank a < rank b) (a : α) :
    ¬TransGen r a a := by
  intro hcircle
  have hlt : TransGen (· < ·) (rank a) (rank a) := hcircle.lift rank h
  rw [transGen_eq_self] at hlt
  exact Nat.lt_irrefl _ hlt

namespace Walk

variable {arrows : Array (List Nat)} {w : Walk}

/-- The nodes on the path lead inwards, and what has been found to be a circle is one. -/
structure Nested (arrows : Array (List Nat)) (w : Walk) : Prop extends Marked arrows w where
  inwards : (w.path.map Prod.fst).Pairwise fun inner outer => TransGen (Leads arrows) outer inner
  circle : ∀ n, w.cycle = some n → TransGen (Leads arrows) n n

theorem Nested.close {node : Nat} {rest : List (Nat × List Nat)} (h : Nested arrows w)
    (hp : w.path = (node, []) :: rest) : Nested arrows (w.close node rest) := by
  refine ⟨h.toMarked.close hp, ?_, h.circle⟩
  have hin := h.inwards
  rw [hp, List.map_cons] at hin
  exact hin.of_cons

theorem Nested.follow {node next : Nat} {others : List Nat} {rest : List (Nat × List Nat)}
    (h : Nested arrows w) (hp : w.path = (node, next :: others) :: rest) :
    Nested arrows ({ w with path := (node, others) :: rest }.meet next) := by
  have hm := (h.toMarked.advance hp).meet next
  have hin := h.inwards
  rw [hp, List.map_cons] at hin
  have hreach (hlt : next < arrows.size) :
      ∀ n ∈ node :: rest.map Prod.fst, TransGen (Leads arrows) n next := by
    obtain ⟨taken, ht⟩ := h.taken node (next :: others) (by simp [hp])
    have hstep : Leads arrows node next := ⟨_, ht, by simp, hlt⟩
    intro n hn
    rcases List.mem_cons.mp hn with rfl | hn
    · exact .single hstep
    · exact (List.rel_of_pairwise_cons hin hn).tail hstep
  refine ⟨hm, ?_, ?_⟩
  · unfold Walk.meet
    split
    · rename_i targets hu
      exact List.Pairwise.cons (hreach (h.lt_size hu)) hin
    · exact hin
    · exact hin
  · unfold Walk.meet
    split
    · exact h.circle
    · rename_i ha
      intro n hn
      rcases Option.or_eq_some_iff.mp hn with hn | ⟨-, hn⟩
      · exact h.circle n hn
      · -- the arrow leads back to a node of the path
        cases hn
        exact hreach (h.lt_size ha) next (by simpa [hp] using (h.active next).mp ha)
    · exact h.circle

theorem Nested.visit {root : Nat} (h : Nested arrows w) (hp : w.path = []) : Nested arrows (w.meet root) := by
  refine ⟨h.toMarked.meet root, ?_, ?_⟩
  · unfold Walk.meet
    split <;> simp [hp]
  · unfold Walk.meet
    split
    · exact h.circle
    · rename_i ha
      simp [h.active, hp] at ha
    · exact h.circle

theorem nested_walkFrom (arrows : Array (List Nat)) (roots : List Nat) : Nested arrows (walkFrom arrows roots) :=
  (visitAll_induction (P := Nested arrows) (fun _ _ _ hp h => h.close hp) (fun _ _ _ _ _ hp h => h.follow hp)
    roots (fun _ _ _ hp h => h.visit hp) _ rfl ⟨marked_start arrows, by simp [start], fun n h => by cases h⟩).1

theorem Descends.not_circle {rank : Nat → Nat} (hr : Descends arrows rank) (n : Nat) : ¬TransGen (Leads arrows) n n :=
  fun h => not_transGen_self (r := Function.swap (Leads arrows)) rank (fun a b hab => hr b a hab) n (transGen_swap.mpr h)

end Walk

/-- A walk over all nodes of a graph tells whether there is a circle. -/
theorem cycle_walkFrom_eq_none_iff {arrows : Array (List Nat)} :
    (walkFrom arrows (List.range arrows.size)).cycle = none ↔ ∀ n, ¬TransGen (Leads arrows) n n := by
  constructor
  · intro hc
    obtain ⟨rank, hr⟩ := descends_of_cycle_eq_none hc
    exact hr.not_circle
  · intro h
    refine Option.eq_none_iff_forall_ne_some.mpr fun n hn => h n ?_
    exact (Walk.nested_walkFrom arrows _).circle n hn

end Nodeflow
