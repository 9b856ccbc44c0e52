import Nodeflow.Proofs.Fault

/-!
# Computations that are given a number of rounds

A loop is run for a number of rounds, and ends in a fault of the caller's choice, its limit, when they
are used up. If the limit makes no difference then the rounds are enough: the loop has come to its own
end. What it comes to with rounds enough is what it does without any limit.
-/

namespace Nodeflow

variable {α : Type} {run run' : Fault → Nat → Except Fault α} {limit : Fault} {m n : Nat} {a : α}

/-- What stands at the end of the rounds makes no difference. -/
def Enough (run : Fault → Nat → Except Fault α) (rounds : Nat) : Prop :=
  ∀ limit limit', run limit rounds = run limit' rounds

open Classical in
/-- What a loop comes to with rounds enough. A loop without an end has no result: it counts as a fault. -/
noncomputable def unlimited (run : Fault → Nat → Except Fault α) : Except Fault α :=
  if h : ∃ rounds, Enough run rounds then run .counterOverflow h.choose else .error .counterOverflow

/-- Each number of rounds is used up, or it leads to an end that further rounds do not change. -/
def Steady (run : Fault → Nat → Except Fault α) : Prop :=
  ∀ n, (∀ limit, run limit n = .error limit) ∨ ∃ outcome, ∀ limit m, n ≤ m → run limit m = outcome

namespace Steady

theorem exists_outcome (hs : Steady run) (h : Enough run n) : ∃ outcome, ∀ limit m, n ≤ m → run limit m = outcome := by
  refine (hs n).resolve_left fun hlimit => ?_
  have hsame := h .counterOverflow .noEntry
  rw [hlimit, hlimit] at hsame
  cases hsame

theorem enough_of_le (hs : Steady run) (h : Enough run n) (hle : n ≤ m) : Enough run m := by
  obtain ⟨outcome, hrun⟩ := hs.exists_outcome h
  exact fun limit limit' => (hrun limit m hle).trans (hrun limit' m hle).symm

theorem eq_unlimited (hs : Steady run) (h : Enough run n) (limit : Fault) : run limit n = unlimited run := by
  have hex : ∃ rounds, Enough run rounds := ⟨n, h⟩
  obtain ⟨outcome, hrun⟩ := hs.exists_outcome h
  obtain ⟨outcome', hrun'⟩ := hs.exists_outcome hex.choose_spec
  have hmax : outcome = outcome' :=
    (hrun limit _ (Nat.le_max_left n hex.choose)).symm.trans (hrun' limit _ (Nat.le_max_right n hex.choose))
  rw [unlimited, dif_pos hex, hrun limit n (Nat.le_refl n), hrun' _ _ (Nat.le_refl _), hmax]

theorem enough_of_ok (hs : Steady run) (h : run limit n = .ok a) : Enough run n := by
  rcases hs n with hlimit | ⟨outcome, hrun⟩
  · rw [hlimit] at h
    cases h
  · exact fun limit limit' => (hrun limit n (Nat.le_refl n)).trans (hrun limit' n (Nat.le_refl n)).symm

/-- Without a limit a loop gives what it gives after some number of rounds. -/
theorem unlimited_eq_ok_iff (hs : Steady run) : unlimited run = .ok a ↔ ∃ limit n, run limit n = .ok a := by
  constructor
  · intro h
    by_cases hex : ∃ rounds, Enough run rounds
    · rw [unlimited, dif_pos hex] at h
      exact ⟨_, _, h⟩
    · rw [unlimited, dif_neg hex] at h
      cases h
  · rintro ⟨limit, n, h⟩
    rw [← hs.eq_unlimited (hs.enough_of_ok h) limit, h]

/-- The first round of one loop leads to the other. -/
theorem unlimited_of_succ (hs : Steady run) (hs' : Steady run') (h : ∀ limit n, run limit (n + 1) = run' limit n) :
    unlimited run = unlimited run' := by
  have henough (n : Nat) : Enough run (n + 1) ↔ Enough run' n := by simp only [Enough, h]
  by_cases hex : ∃ rounds, Enough run' rounds
  · obtain ⟨n, hn⟩ := hex
    rw [← hs'.eq_unlimited hn .counterOverflow, ← h, hs.eq_unlimited ((henough n).mpr hn)]
  · have hnone : ¬∃ rounds, Enough run rounds := fun ⟨n, hn⟩ =>
      hex ⟨n, (henough n).mp (hs.enough_of_le hn (Nat.le_succ n))⟩
    rw [unlimited, unlimited, dif_neg hnone, dif_neg hex]

end Steady

end Nodeflow
