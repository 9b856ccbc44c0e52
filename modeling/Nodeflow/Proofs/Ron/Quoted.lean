import Nodeflow.Ron.Scalar
import Nodeflow.Text.Quoted
import Nodeflow.Proofs.Text.Digits
import Mathlib.Tactic.SplitIfs

/-!
# Quoted texts that read back

Whatever a text consists of, its quoted form is read up to the closing quote and gives the text
again, whether or not its apostrophes are written behind backslashes.
-/

namespace Nodeflow.Ron

open Text

variable {c : Char} {text rest : List Char}

theorem escapedNumber_toDigits (c : Char) (rest : List Char) :
    escapedNumber (Nat.toDigits 16 c.toNat ++ '\x7d' :: rest) = some (c, rest) := by
  have hvalid : Nat.isValidChar c.toNat := c.valid
  have hlength : (Nat.toDigits 16 c.toNat).length ≤ 6 := by
    refine (Nat.length_toDigits_le_iff (by decide) (by decide)).mpr ?_
    rcases hvalid with h | ⟨-, h⟩ <;> omega
  have hdigits : ∀ d ∈ Nat.toDigits 16 c.toNat, d ≠ '\x7d' := by
    intro d hd
    obtain ⟨n, hn, rfl⟩ := exists_digitChar_of_mem_toDigits (by decide) hd
    clear hlength hvalid hd
    decide +revert
  have htake : ((Nat.toDigits 16 c.toNat ++ '\x7d' :: rest).take 6).takeWhile (· ≠ '\x7d') =
      Nat.toDigits 16 c.toNat := by
    rw [List.take_append, List.take_of_length_le hlength, List.takeWhile_append_of_pos (by simpa using hdigits)]
    cases 6 - (Nat.toDigits 16 c.toNat).length <;> simp
  unfold escapedNumber
  simp only [htake, List.drop_left, digitsValue?_toDigits (by decide : 1 < 16) (by decide), Option.bind_some]
  simp [hvalid]

theorem quotedRest_of_escape? (h : escape? text = some (c, rest)) :
    quotedRest ('\\' :: text) = (quotedRest rest).map fun (chars, after) => (c :: chars, after) := by
  rw [quotedRest, if_neg (by decide), if_pos rfl]
  split
  next h' =>
      cases h.symm.trans h'
      rfl
  next h' => cases h.symm.trans h'

theorem quotedRest_escape (apostrophe : Bool) (c : Char) (rest : List Char) :
    quotedRest (escape apostrophe c ++ rest) =
      (quotedRest rest).map fun (chars, after) => (c :: chars, after) := by
  unfold escape
  split_ifs with hzero htab hreturn hnewline hbackslash hquote hapostrophe
  · subst hzero
    exact quotedRest_of_escape? rfl
  · subst htab
    exact quotedRest_of_escape? rfl
  · subst hreturn
    exact quotedRest_of_escape? rfl
  · subst hnewline
    exact quotedRest_of_escape? rfl
  · subst hbackslash
    exact quotedRest_of_escape? rfl
  · subst hquote
    exact quotedRest_of_escape? rfl
  · obtain ⟨-, hc⟩ := by simpa using hapostrophe
    subst hc
    exact quotedRest_of_escape? rfl
  · have hnumber : byNumber c ++ rest =
        '\\' :: 'u' :: '\x7b' :: (Nat.toDigits 16 c.toNat ++ '\x7d' :: rest) := by
      simp [byNumber]
    rw [hnumber]
    exact quotedRest_of_escape? (escapedNumber_toDigits c rest)
  · rw [List.singleton_append, quotedRest, if_neg hquote, if_neg hbackslash]

theorem quotedRest_flatMap_escape (apostrophe : Bool) (chars rest : List Char) :
    quotedRest (chars.flatMap (escape apostrophe) ++ '"' :: rest) = some (chars, rest) := by
  induction chars with
  | nil => rw [List.flatMap_nil, List.nil_append, quotedRest, if_pos rfl]
  | cons c chars ih =>
      rw [List.flatMap_cons, List.append_assoc, quotedRest_escape, ih]
      rfl

end Nodeflow.Ron
