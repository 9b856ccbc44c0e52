import Nodeflow.Decimal.Layout
import Nodeflow.Decimal.Reading
import Nodeflow.Proofs.Decimal.Rounding
import Mathlib.Data.List.TakeWhile

/-!
# Written floats that read back

In tree files a finite magnitude is written as digits with a decimal point among them. Wherever the
point stands, the literal denotes the shortest decimal of the magnitude, and so the magnitude itself.
-/

namespace Nodeflow

namespace Literal

open Decimal

variable {whole fraction digits : List Char}

theorem digitsValue_eq (digits : List Char) : digitsValue digits = Nat.ofDigitChars 10 digits 0 := rfl

theorem digitsValue_toDigits (n : Nat) : digitsValue (Nat.toDigits 10 n) = n := Nat.ofDigitChars_ten_toDigits

theorem digitsValue_zeros_append (k : Nat) (digits : List Char) :
    digitsValue (List.replicate k '0' ++ digits) = digitsValue digits := by
  rw [digitsValue_eq, Nat.ofDigitChars_append, Nat.ofDigitChars_replicate_zero, Nat.mul_zero, ← digitsValue_eq]

theorem digitsValue_append_zeros (digits : List Char) (k : Nat) :
    digitsValue (digits ++ List.replicate k '0') = digitsValue digits * powerOfTen k := by
  rw [digitsValue_eq, Nat.ofDigitChars_append, Nat.ofDigitChars_replicate_zero, ← digitsValue_eq, Nat.mul_comm]
  rfl

theorem decimal?_point (hwhole : ∀ c ∈ whole, c.isDigit = true) (hfraction : ∀ c ∈ fraction, c.isDigit = true)
    (hne : whole ≠ []) :
    decimal? (whole ++ '.' :: fraction) = some ⟨digitsValue (whole ++ fraction), -fraction.length⟩ := by
  have htake : (whole ++ '.' :: fraction).takeWhile Char.isDigit = whole := by
    rw [List.takeWhile_append_of_pos hwhole]
    simp
  have hdrop : (whole ++ '.' :: fraction).dropWhile Char.isDigit = '.' :: fraction := by
    rw [List.dropWhile_append_of_pos hwhole]
    simp
  have hall : fraction.takeWhile Char.isDigit = fraction := List.takeWhile_eq_self_iff.mpr hfraction
  have hnone : fraction.dropWhile Char.isDigit = [] := List.dropWhile_eq_nil_iff.mpr hfraction
  simp [decimal?, htake, hdrop, hall, hnone, hne, power?]

end Literal

namespace FloatLayout

open Decimal Literal

/-- A text is digits around a decimal point, and they denote a magnitude. -/
structure Denotes (text : List Char) (m : Magnitude) (whole fraction : List Char) : Prop where
  text_eq : text = whole ++ '.' :: fraction
  whole_ne : whole ≠ []
  digits : ∀ c ∈ whole ++ fraction, c.isDigit = true
  value : toMagnitude ⟨digitsValue (whole ++ fraction), -fraction.length⟩ = m

variable {m : Magnitude} {digits : List Char}

theorem isDigit_of_mem_zeros (k : Nat) : ∀ c ∈ List.replicate k '0', c.isDigit = true := by
  intro c hc
  rw [List.eq_of_mem_replicate hc]
  decide

/-- Wherever the decimal point is placed, the digits keep their value. -/
theorem exists_denotes_place {point : Int} (hdigits : ∀ c ∈ digits, c.isDigit = true)
    (hvalue : toMagnitude ⟨digitsValue digits, point - digits.length⟩ = m) :
    ∃ whole fraction, Denotes (file.place digits point) m whole fraction := by
  by_cases hsmall : point ≤ 0
  · have hzero : ['0'] ++ (List.replicate (-point).toNat '0' ++ digits) =
        List.replicate ((-point).toNat + 1) '0' ++ digits := rfl
    refine ⟨['0'], List.replicate (-point).toNat '0' ++ digits, by simp [place, hsmall], by simp, ?_, ?_⟩
    · rw [hzero]
      exact List.forall_mem_append.mpr ⟨isDigit_of_mem_zeros _, hdigits⟩
    · have hexponent : -((List.replicate (-point).toNat '0' ++ digits).length : Int) = point - digits.length := by
        simp only [List.length_append, List.length_replicate]
        omega
      rw [hzero, digitsValue_zeros_append, hexponent, hvalue]
  · by_cases hlarge : (digits.length : Int) ≤ point
    · obtain ⟨k, hk⟩ : ∃ k : Nat, (k : Int) = point - digits.length := ⟨(point - digits.length).toNat, by omega⟩
      have hzeros : digits ++ List.replicate k '0' ++ ['0'] = digits ++ List.replicate (k + 1) '0' := by
        rw [List.append_assoc, List.replicate_succ']
      refine ⟨digits ++ List.replicate k '0', ['0'], ?_, ?_, ?_, ?_⟩
      · simp [place, hsmall, hlarge, file, ← hk]
      · intro hnil
        have := congrArg List.length hnil
        simp only [List.length_append, List.length_replicate, List.length_nil] at this
        omega
      · rw [hzeros]
        exact List.forall_mem_append.mpr ⟨hdigits, isDigit_of_mem_zeros _⟩
      · have hexponent : -((['0'] : List Char).length : Int) = (point - digits.length) - (k + 1 : Nat) := by
          rw [← hk]
          simp
        rw [hzeros, digitsValue_append_zeros, hexponent, toMagnitude_scale, hvalue]
    · refine ⟨digits.take point.toNat, digits.drop point.toNat, by simp [place, hsmall, hlarge], ?_, ?_, ?_⟩
      · intro hnil
        have := congrArg List.length hnil
        simp only [List.length_take, List.length_nil] at this
        omega
      · rw [List.take_append_drop]
        exact hdigits
      · have hexponent : -((digits.drop point.toNat).length : Int) = point - digits.length := by
          rw [List.length_drop]
          omega
        rw [List.take_append_drop, hexponent, hvalue]

theorem exists_trailing_zeros (text : List Char) :
    ∃ k, text = (text.reverse.dropWhile (· == '0')).reverse ++ List.replicate k '0' := by
  refine ⟨(text.reverse.takeWhile (· == '0')).length, ?_⟩
  have hzeros : text.reverse.takeWhile (· == '0') =
      List.replicate (text.reverse.takeWhile (· == '0')).length '0' :=
    List.eq_replicate_of_mem fun c hc => by simpa using List.mem_takeWhile_imp hc
  rw [← List.reverse_replicate, ← hzeros, ← List.reverse_append, List.takeWhile_append_dropWhile,
    List.reverse_reverse]

theorem exists_denotes_decimal {d : Decimal} (hvalue : d.toMagnitude = m) :
    ∃ whole fraction, Denotes (file.decimal d) m whole fraction := by
  obtain ⟨k, hk⟩ := exists_trailing_zeros (Nat.toDigits 10 d.digits)
  have hdecimal : file.decimal d =
      file.place ((Nat.toDigits 10 d.digits).reverse.dropWhile (· == '0')).reverse d.point := rfl
  rw [hdecimal]
  generalize ((Nat.toDigits 10 d.digits).reverse.dropWhile (· == '0')).reverse = digits at hk ⊢
  have hdigits : ∀ c ∈ digits, c.isDigit = true := fun c hc =>
    Nat.isDigit_of_mem_toDigits (by decide) (by decide) (hk ▸ List.mem_append_left _ hc)
  refine exists_denotes_place hdigits ?_
  have hscaled : d = ⟨digitsValue digits * powerOfTen k, d.point - digits.length - k⟩ := by
    have hn : d.digits = digitsValue digits * powerOfTen k := by
      rw [← digitsValue_append_zeros, ← hk, digitsValue_toDigits]
    have he : d.exponent = d.point - digits.length - k := by
      rw [point, length, hk, List.length_append, List.length_replicate]
      omega
    rw [← hn, ← he]
  rw [← toMagnitude_scale, ← hscaled, hvalue]

theorem exists_denotes_magnitude (hm : m.val < infinityRank) :
    ∃ whole fraction, Denotes (file.magnitude m) m whole fraction := by
  have hfinite : m.isInfinite = false := by simpa [Magnitude.isInfinite] using hm.ne
  by_cases hzero : m = .zero
  · refine ⟨['0'], ['0'], ?_, by simp, isDigit_of_mem_zeros 2, ?_⟩
    · rw [magnitude, hfinite, if_neg (by decide), if_pos hzero]
      rfl
    · rw [hzero]
      rfl
  · have hmagnitude : file.magnitude m = file.decimal m.shortest := by
      rw [magnitude, hfinite, if_neg (by decide), if_neg hzero]
    rw [hmagnitude]
    exact exists_denotes_decimal (Magnitude.toMagnitude_shortest hzero hm)

/-- Digits around a decimal point are no word, and they carry no sign of their own. -/
theorem Denotes.ofLiteral? {text whole fraction : List Char} (h : Denotes text m whole fraction) (negative : Bool) :
    Binary32.ofLiteral? ((if negative then ['-'] else []) ++ text) = some (.number negative m) := by
  obtain ⟨hwhole, hfraction⟩ := List.forall_mem_append.mp h.digits
  have hpoint : '.' ∈ text.map Char.toLower := by
    rw [h.text_eq]
    exact List.mem_map.mpr ⟨'.', by simp, rfl⟩
  have hsign : Literal.splitSign ((if negative then ['-'] else []) ++ text) = (negative, text) := by
    cases negative with
    | true => rfl
    | false =>
        obtain ⟨c, rest, hrest⟩ := List.exists_cons_of_ne_nil h.whole_ne
        have hc : c.isDigit = true := hwhole c (by simp [hrest])
        have htext : text = c :: (rest ++ '.' :: fraction) := by rw [h.text_eq, hrest, List.cons_append]
        subst htext
        change Literal.splitSign (c :: _) = _
        unfold Literal.splitSign
        split
        next heq =>
            cases heq
            cases hc
        next heq =>
            cases heq
            cases hc
        next => rfl
  have hdecimal : Literal.decimal? text = some ⟨digitsValue (whole ++ fraction), -fraction.length⟩ := by
    rw [h.text_eq, decimal?_point hwhole hfraction h.whole_ne]
  have hword : ∀ word, text.map Char.toLower = word → '.' ∈ word := by
    rintro word rfl
    exact hpoint
  unfold Binary32.ofLiteral?
  rw [hsign]
  simp only [Bool.or_eq_true, decide_eq_true_eq]
  rw [if_neg (fun heq => absurd (hword _ heq) (by decide)), if_neg ?_, hdecimal]
  · rw [Option.map_some, h.value]
  · rintro (heq | heq) <;> exact absurd (hword _ heq) (by decide)

end FloatLayout

end Nodeflow
