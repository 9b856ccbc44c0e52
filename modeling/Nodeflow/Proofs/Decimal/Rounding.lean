import Nodeflow.Decimal.Shortest
import Mathlib.Data.Nat.Log
import Mathlib.Tactic.NormNum
import Mathlib.Tactic.Ring

/-!
# Decimals that read back

Rounding looks at a quotient alone, so a decimal number reads as the same magnitude in whichever way
it is split into digits and a power of ten. A finite magnitude rounds to itself, hence the decimal
that is written for it reads back as the magnitude it was written for.
-/

namespace Nodeflow

namespace Magnitude

variable {m : Magnitude} {n d c : Nat}

theorem divideToEven_mul_right (n d : Nat) (hc : 0 < c) :
    divideToEven (n * c) (d * c) = divideToEven n d := by
  have hlt : 2 * (n * c % (d * c)) < d * c ↔ 2 * (n % d) < d := by
    rw [Nat.mul_mod_mul_right, ← Nat.mul_assoc, Nat.mul_lt_mul_right hc]
  have hgt : d * c < 2 * (n * c % (d * c)) ↔ d < 2 * (n % d) := by
    rw [Nat.mul_mod_mul_right, ← Nat.mul_assoc, Nat.mul_lt_mul_right hc]
  unfold divideToEven
  simp only [Nat.mul_div_mul_right n d hc, hlt, hgt]

/-- Only the quotient is rounded. -/
theorem nearest_mul_right (n d : Nat) (hc : 0 < c) : nearest (n * c) (d * c) = nearest n d := by
  unfold nearest
  simp only [Nat.mul_div_mul_right n d hc, Nat.shiftLeft_eq, Nat.mul_right_comm d c,
    divideToEven_mul_right _ _ hc]

theorem nearest_congr {n' d' : Nat} (hd : 0 < d) (hd' : 0 < d') (h : n * d' = n' * d) :
    nearest n d = nearest n' d' := by
  rw [← nearest_mul_right n d hd', h, Nat.mul_comm d d', nearest_mul_right n' d' hd]

theorem divideToEven_self_mul (n : Nat) (hd : 0 < d) : divideToEven (n * d) d = n := by
  unfold divideToEven
  simp only [Nat.mul_div_cancel n hd, Nat.mul_mod_left, Nat.mul_zero, if_pos hd]

theorem nearest_units (hm : m.val < infinityRank) : nearest m.units 1 = m := by
  have hbinade : binade = 2 ^ 23 := rfl
  suffices hrank : (Nat.log2 m.units - 23) * binade +
      divideToEven m.units (1 <<< (Nat.log2 m.units - 23)) = m.val by
    apply Fin.ext
    simp only [nearest, Nat.div_one, hrank]
    exact Nat.min_eq_left hm.le
  by_cases hsmall : m.val < binade
  · have hunits : m.units = m.val := if_pos hsmall
    have hlog : Nat.log2 m.units - 23 = 0 := by
      by_cases hzero : m.units = 0
      · simp [hzero]
      · have := (Nat.log2_lt hzero).mpr (hunits ▸ hbinade ▸ hsmall : m.units < 2 ^ 23)
        omega
    rw [hlog, hunits]
    simpa using divideToEven_self_mul m.val Nat.one_pos
  · obtain ⟨e, he⟩ : ∃ e, m.val / binade = e + 1 :=
      ⟨m.val / binade - 1, by have := Nat.div_pos (Nat.le_of_not_lt hsmall) (by decide); omega⟩
    have hunits : m.units = (binade + m.val % binade) * 2 ^ e := by
      rw [units, if_neg hsmall, he, Nat.shiftLeft_eq, Nat.add_sub_cancel]
    have hmod : m.val % binade < binade := Nat.mod_lt _ (by decide)
    have hlog : Nat.log2 m.units = 23 + e := by
      have hpos : m.units ≠ 0 := by
        rw [hunits]
        exact Nat.mul_ne_zero (by omega) (by positivity)
      refine (Nat.log2_eq_iff hpos).mpr ?_
      rw [hunits, Nat.add_right_comm, Nat.pow_add, Nat.pow_add]
      exact ⟨Nat.mul_le_mul_right _ (by omega), Nat.mul_lt_mul_of_pos_right (by omega) (by positivity)⟩
    rw [hlog, Nat.add_sub_cancel_left, Nat.shiftLeft_eq, Nat.one_mul, hunits,
      divideToEven_self_mul _ (by positivity)]
    have hsplit := Nat.div_add_mod m.val binade
    rw [he, Nat.mul_succ, Nat.mul_comm binade e, Nat.add_assoc] at hsplit
    exact hsplit

end Magnitude

namespace Decimal

open Magnitude

theorem powerOfTen_pos (n : Nat) : 0 < powerOfTen n := Nat.pow_pos (by decide)

theorem powerOfTen_zero : powerOfTen 0 = 1 := rfl

theorem powerOfTen_mul (j k : Nat) : powerOfTen j * powerOfTen k = powerOfTen (j + k) :=
  (Nat.pow_add 10 j k).symm

theorem toDigits_mul_powerOfTen {n : Nat} (hn : 0 < n) (k : Nat) :
    Nat.toDigits 10 (n * powerOfTen k) = Nat.toDigits 10 n ++ List.replicate k '0' := by
  induction k with
  | zero => simp [powerOfTen]
  | succ k ih =>
      have hpos : 0 < n * powerOfTen k := Nat.mul_pos hn (powerOfTen_pos k)
      calc
        Nat.toDigits 10 (n * powerOfTen (k + 1)) = Nat.toDigits 10 (10 * (n * powerOfTen k) + 0) := by
          congr 1
          rw [← powerOfTen_mul k 1, ← Nat.mul_assoc]
          exact Nat.mul_comm _ 10
        _ = Nat.toDigits 10 (n * powerOfTen k) ++ ['0'] :=
          (Nat.toDigits_append_toDigits (by decide) hpos (by decide)).symm
        _ = Nat.toDigits 10 n ++ List.replicate (k + 1) '0' := by
          rw [ih, List.append_assoc, List.replicate_succ']

/-- Within the range of what is computed at all, a decimal is rounded as the quotient that it is. -/
theorem toMagnitude_eq {d : Decimal} (hd : d.digits ≠ 0) (hlarge : d.point ≤ 39) (hsmall : -45 ≤ d.point) :
    d.toMagnitude =
      nearest ((d.digits * powerOfTen d.exponent.toNat) <<< 149) (powerOfTen (-d.exponent).toNat) := by
  rw [toMagnitude, if_neg hd, if_neg (by omega), if_neg (by omega)]
  split
  next hexponent => rw [show (-d.exponent).toNat = 0 by omega]; rfl
  next hexponent =>
      rw [show d.exponent.toNat = 0 by omega]
      simp [powerOfTen]

theorem toMagnitude_scale (n k : Nat) (e : Int) :
    toMagnitude ⟨n * powerOfTen k, e - k⟩ = toMagnitude ⟨n, e⟩ := by
  rcases Nat.eq_zero_or_pos n with rfl | hn
  · simp [toMagnitude]
  · have hpoint : point ⟨n * powerOfTen k, e - k⟩ = point ⟨n, e⟩ := by
      simp only [point, length, toDigits_mul_powerOfTen hn, List.length_append, List.length_replicate]
      omega
    have hzero : n * powerOfTen k ≠ 0 := Nat.mul_ne_zero hn.ne' (powerOfTen_pos k).ne'
    by_cases hlarge : 39 < point ⟨n, e⟩
    · simp only [toMagnitude, hpoint, hlarge, hzero, hn.ne', if_true, if_false]
    by_cases hsmall : point ⟨n, e⟩ < -45
    · simp only [toMagnitude, hpoint, hlarge, hsmall, hzero, hn.ne', if_true, if_false]
    rw [toMagnitude_eq hzero (by omega) (by omega), toMagnitude_eq hn.ne' (by omega) (by omega)]
    refine nearest_congr (powerOfTen_pos _) (powerOfTen_pos _) ?_
    simp only [Nat.shiftLeft_eq]
    have hexponents : k + (e - k).toNat + (-e).toNat = e.toNat + (-(e - k)).toNat := by omega
    calc
      n * powerOfTen k * powerOfTen (e - k).toNat * 2 ^ 149 * powerOfTen (-e).toNat
        = n * (powerOfTen k * powerOfTen (e - k).toNat * powerOfTen (-e).toNat) * 2 ^ 149 := by ring
      _ = n * (powerOfTen e.toNat * powerOfTen (-(e - k)).toNat) * 2 ^ 149 := by
        rw [powerOfTen_mul, powerOfTen_mul, hexponents, powerOfTen_mul]
      _ = n * powerOfTen e.toNat * 2 ^ 149 * powerOfTen (-(e - k)).toNat := by ring

end Decimal

namespace Magnitude

variable {m : Magnitude}

open Decimal

theorem units_lt (hm : m.val < infinityRank) : m.units < 2 ^ 24 * 2 ^ 253 := by
  unfold units
  split
  next hsmall => exact hsmall.trans (by decide)
  next hlarge =>
      rw [Nat.shiftLeft_eq]
      have hmod : m.val % binade < binade := Nat.mod_lt _ (by decide)
      have hdiv : m.val / binade < 255 := Nat.div_lt_of_lt_mul hm
      have hfirst : binade + m.val % binade < 2 ^ 24 := Nat.add_lt_add_left hmod binade
      exact Nat.mul_lt_mul_of_lt_of_le hfirst (Nat.pow_le_pow_right (by decide) (by omega)) (by positivity)

theorem units_pos (hm : m ≠ .zero) : 0 < m.units := by
  have hpos : 0 < m.val := Nat.pos_of_ne_zero fun h => hm (Fin.ext h)
  unfold units
  split
  next => exact hpos
  next =>
      rw [Nat.shiftLeft_eq]
      positivity

theorem toMagnitude_exactDecimal (hm : m ≠ .zero) (hfinite : m.val < infinityRank) :
    m.exactDecimal.toMagnitude = m := by
  have hpos := units_pos hm
  have hexact : m.exactDecimal = ⟨m.units * 5 ^ 149, -149⟩ := rfl
  have hdigits : m.units * 5 ^ 149 ≠ 0 := by positivity
  have hlarge : length (m.units * 5 ^ 149) ≤ 188 :=
    (Nat.length_toDigits_le_iff (by decide) (by decide)).mpr
      ((Nat.mul_lt_mul_of_pos_right (units_lt hfinite) (by positivity)).trans (by decide))
  have hsmall : 104 ≤ length (m.units * 5 ^ 149) := by
    by_contra hshort
    have hlt : m.units * 5 ^ 149 < 10 ^ 103 :=
      (Nat.length_toDigits_le_iff (by decide) (by decide)).mp (Nat.le_of_lt_succ (Nat.lt_of_not_le hshort))
    have hle : 10 ^ 103 ≤ m.units * 5 ^ 149 := le_trans (by decide) (Nat.le_mul_of_pos_left _ hpos)
    exact Nat.not_lt_of_le hle hlt
  have hten : powerOfTen 149 = 5 ^ 149 * 2 ^ 149 := Nat.mul_pow 5 2 149
  rw [hexact, toMagnitude_eq hdigits (by simp only [point]; omega) (by simp only [point]; omega)]
  refine Eq.trans (nearest_congr (powerOfTen_pos _) Nat.one_pos ?_) (nearest_units hfinite)
  have hunits : (m.units * 5 ^ 149 * powerOfTen 0) <<< 149 * 1 = m.units * powerOfTen 149 := by
    rw [hten, Nat.shiftLeft_eq, powerOfTen_zero, Nat.mul_one, Nat.mul_one, Nat.mul_assoc]
  exact hunits

theorem readsFrom_of_betterNeighbour? {lower upper d : Decimal} {lowerIsNearer : Bool}
    (h : m.betterNeighbour? lower upper lowerIsNearer = some d) : m.readsFrom d = true := by
  unfold betterNeighbour? at h
  split at h
  · rw [← Option.some.inj h]
    split <;> assumption
  · rwa [← Option.some.inj h]
  · rwa [← Option.some.inj h]
  · cases h

theorem toMagnitude_shortest (hm : m ≠ .zero) (hfinite : m.val < infinityRank) :
    m.shortest.toMagnitude = m := by
  unfold shortest
  cases hfound : (List.range 9).findSome? fun k => m.withDigits? (k + 1) with
  | none => exact toMagnitude_exactDecimal hm hfinite
  | some d =>
      obtain ⟨k, -, hk⟩ := List.exists_of_findSome?_eq_some hfound
      exact eq_of_beq (readsFrom_of_betterNeighbour? hk)

end Magnitude

end Nodeflow
