import Nodeflow.Uuid
import Mathlib.Algebra.Group.Nat.Defs

/-!
# Digits that read back

A number is read from the digits that it is written with, in every base up to sixteen, and so is an
identifier from its hyphenated form.
-/

namespace Nodeflow

namespace Text

variable {base n d : Nat} {digits : List Char} {c : Char}

theorem hexValue?_digitChar : ∀ d < 16, hexValue? d.digitChar = some d := by decide

theorem digitsValue?_concat (hbase : base ≤ 16) (hd : d < base) (h : digitsValue? base digits = some n) :
    digitsValue? base (digits ++ [d.digitChar]) = some (base * n + d) := by
  unfold digitsValue? at h ⊢
  simp [List.foldlM_append, h, hexValue?_digitChar d (by omega), hd]

theorem digitsValue?_toDigits (hone : 1 < base) (hbase : base ≤ 16) (n : Nat) :
    digitsValue? base (Nat.toDigits base n) = some n := by
  induction n using Nat.strongRecOn with
  | ind n ih =>
      by_cases hn : n < base
      · have hfirst : digitsValue? base ([] ++ [n.digitChar]) = some (base * 0 + n) := digitsValue?_concat hbase hn rfl
        simpa [Nat.toDigits_of_lt_base hn] using hfirst
      · have hle : base ≤ n := Nat.le_of_not_lt hn
        rw [Nat.toDigits_of_base_le hone hle, digitsValue?_concat hbase (Nat.mod_lt n (by omega))
          (ih (n / base) (Nat.div_lt_self (by omega) hone)), Nat.div_add_mod]

theorem exists_digitChar_of_mem_toDigits (hone : 1 < base) {n : Nat} (h : c ∈ Nat.toDigits base n) :
    ∃ d < base, c = d.digitChar := by
  induction n using Nat.strongRecOn with
  | ind n ih =>
      by_cases hn : n < base
      · rw [Nat.toDigits_of_lt_base hn, List.mem_singleton] at h
        exact ⟨n, hn, h⟩
      · have hle : base ≤ n := Nat.le_of_not_lt hn
        rw [Nat.toDigits_of_base_le hone hle, List.mem_append, List.mem_singleton] at h
        rcases h with hfront | hlast
        · exact ih (n / base) (Nat.div_lt_self (by omega) hone) hfront
        · exact ⟨n % base, Nat.mod_lt n (by omega), hlast⟩

end Text

namespace Uuid

open Text

theorem hexDigits_succ (width n : Nat) :
    hexDigits (width + 1) n = hexDigits width (n / 16) ++ [(n % 16).digitChar] := by
  have hshift : ∀ i, n >>> (4 * (i + 1)) = (n / 16) >>> (4 * i) := by
    intro i
    rw [Nat.mul_succ, Nat.add_comm, Nat.shiftRight_add, Nat.shiftRight_eq_div_pow n 4]
  simp [hexDigits, List.range_succ_eq_map, Function.comp_def, hshift]

theorem length_hexDigits (width n : Nat) : (hexDigits width n).length = width := by simp [hexDigits]

theorem digitsValue?_hexDigits (width n : Nat) :
    digitsValue? 16 (hexDigits width n) = some (n % 16 ^ width) := by
  induction width generalizing n with
  | zero => simp [hexDigits, digitsValue?, Nat.mod_one]
  | succ width ih =>
      rw [hexDigits_succ, digitsValue?_concat (Nat.le_refl 16) (Nat.mod_lt n (by decide)) (ih (n / 16)),
        Nat.pow_succ', Nat.mod_mul, Nat.add_comm]

theorem digitsValue?_hexDigits_toNat (n : UInt64) : digitsValue? 16 (hexDigits 16 n.toNat) = some n.toNat := by
  have hlt : n.toNat < 16 ^ 16 := n.toNat_lt
  rw [digitsValue?_hexDigits, Nat.mod_eq_of_lt hlt]

theorem ofDigits?_digits (id : Uuid) : ofDigits? id.digits = some id := by
  simp [ofDigits?, digits, length_hexDigits, digitsValue?_hexDigits_toNat]

/-- Of the hyphenated form only the digits count. -/
theorem ofHyphenated?_groups {a b c d e : List Char} (ha : a.length = 8) (hb : b.length = 4) (hc : c.length = 4)
    (hd : d.length = 4) (he : e.length = 12) :
    ofHyphenated? (a ++ '-' :: b ++ '-' :: c ++ '-' :: d ++ '-' :: e) = ofDigits? (a ++ b ++ c ++ d ++ e) := by
  simp [ofHyphenated?, List.drop_append, List.drop_eq_nil_of_le, List.getElem?_append, ha, hb,
    hc, hd, he]

theorem ofText?_toText (id : Uuid) : ofText? id.toText = some id := by
  have hlength : id.digits.length = 32 := by simp [digits, length_hexDigits]
  have hsplit : id.digits.take 8 ++ (id.digits.drop 8).take 4 ++ (id.digits.drop 12).take 4 ++
      (id.digits.drop 16).take 4 ++ id.digits.drop 20 = id.digits := by
    have hjoin : ∀ i k : Nat, (id.digits.drop i).take k ++ id.digits.drop (i + k) = id.digits.drop i := by
      intro i k
      rw [← List.drop_drop, List.take_append_drop]
    simp only [List.append_assoc, hjoin 16 4, hjoin 12 4, hjoin 8 4, List.take_append_drop]
  simp only [ofText?, toText, String.toList_ofList]
  rw [ofHyphenated?_groups (by simp [hlength]) (by simp [hlength]) (by simp [hlength]) (by simp [hlength])
    (by simp [hlength]), hsplit, ofDigits?_digits]
  simp [hlength]

end Uuid

end Nodeflow
