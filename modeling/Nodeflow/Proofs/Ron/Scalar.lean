import Nodeflow.Proofs.Decimal.Layout
import Nodeflow.Proofs.Ron.Quoted
import Nodeflow.Proofs.Ron.Records

/-!
# Written values that read back

Texts, truth values, whole numbers of 32 bits and floats are read from what is written for them. Of
a float every bit comes back, and of what is not a number the sign.
-/

namespace Nodeflow.Ron

open Reader

variable {text rest chars : List Char}

theorem reads_quoted (apostrophe : Bool) (s : String) : Reads Reader.text (Text.quoteWith apostrophe s) s := by
  have hsplit : ∀ rest, (Text.quoteWith apostrophe s).toList ++ rest =
      '"' :: (s.toList.flatMap (Text.escape apostrophe) ++ '"' :: rest) := by simp [Text.quoteWith]
  refine ⟨⟨'"', _, by rw [Text.quoteWith, String.toList_ofList], by decide⟩, fun rest _ => ?_⟩
  have hquoted : ofFunction quotedRest (s.toList.flatMap (Text.escape apostrophe) ++ '"' :: rest) =
      some (s.toList, rest) := quotedRest_flatMap_escape apostrophe s.toList rest
  unfold Reader.text
  rw [hsplit, bind_of_eq (take?_cons '"' _), if_pos rfl, bind_of_eq hquoted, String.ofList_toList]
  rfl

theorem reads_bool (b : Bool) : Reads Reader.bool (boolText b) b := by
  unfold Reader.bool
  cases b with
  | true =>
      have htext : (boolText true).toList = ['t', 'r', 'u', 'e'] := by decide
      refine ⟨⟨'t', _, htext, by decide⟩, fun rest hrest => ?_⟩
      rw [htext, bind_of_eq (word?_append _ hrest)]
      rfl
  | false =>
      have htext : (boolText false).toList = ['f', 'a', 'l', 's', 'e'] := by decide
      refine ⟨⟨'f', _, htext, by decide⟩, fun rest hrest => ?_⟩
      rw [htext, bind_of_eq (word?_of_absent (by simp)), if_neg (by decide), bind_of_eq (word?_append _ hrest)]
      rfl

/-! ## Whole numbers -/

theorem isDigit_of_mem_toDigits (n : Nat) : ∀ c ∈ Nat.toDigits 10 n, c.isDigit = true :=
  fun _ hc => Nat.isDigit_of_mem_toDigits (by decide) (by decide) hc

theorem absent_of_toDigits {marked : List Char} (n : Nat) (hrest : Ends rest)
    (hmark : (marked.dropWhile Char.isDigit).head?.any (· ∉ endings) = true) :
    ¬marked <+: Nat.toDigits 10 n ++ rest :=
  absent_of_marked (isDigit_of_mem_toDigits n) hrest (by decide) hmark

theorem base_of_toDigits (n : Nat) (hrest : Ends rest) :
    base (Nat.toDigits 10 n ++ rest) = some ((10, true), Nat.toDigits 10 n ++ rest) := by
  unfold base
  rw [bind_of_eq (take?_of_absent (absent_of_toDigits n hrest (by decide))), if_neg (by decide),
    bind_of_eq (take?_of_absent (absent_of_toDigits n hrest (by decide))), if_neg (by decide),
    bind_of_eq (take?_of_absent (absent_of_toDigits n hrest (by decide))), if_neg (by decide)]
  rfl

theorem digits_append (n : Nat) (hrest : Ends rest) :
    digits (Nat.toDigits 10 n ++ rest) = some ((n, true), rest) := by
  have hchars : ∀ c ∈ Nat.toDigits 10 n, isIntChar c = true := by
    intro c hc
    obtain ⟨d, hd, rfl⟩ := Text.exists_digitChar_of_mem_toDigits (by decide) hc
    clear hc
    decide +revert
  have hunderscore : '_' ∉ Nat.toDigits 10 n := Nat.underscore_not_in_toDigits
  have hfilter : (Nat.toDigits 10 n).filter (· != '_') = Nat.toDigits 10 n :=
    List.filter_eq_self.mpr fun c hc => by simpa using ne_of_mem_of_not_mem hc hunderscore
  have hstart : ((Nat.toDigits 10 n).isEmpty || (Nat.toDigits 10 n).head? == some '_') = false := by
    obtain ⟨c, chars, hcons⟩ := List.exists_cons_of_ne_nil (Nat.toDigits_ne_nil : Nat.toDigits 10 n ≠ [])
    have hc : c ≠ '_' := ne_of_mem_of_not_mem (by rw [hcons]; exact List.mem_cons_self ..) hunderscore
    simp [hcons, hc]
  have hvalue : Text.digitsValue? 10 (Nat.toDigits 10 n) = some n :=
    Text.digitsValue?_toDigits (by decide) (by decide) n
  unfold digits
  rw [bind_of_eq (base_of_toDigits n hrest)]
  dsimp only
  rw [bind_of_eq (takeWhile_append hchars (hrest.stops (by decide)))]
  simp only [hstart, hfilter, hvalue]
  rfl

theorem toList_toString_int (z : Int) :
    (toString z).toList = if 0 ≤ z then Nat.toDigits 10 z.toNat else '-' :: Nat.toDigits 10 (-z).toNat := by
  rw [Int.toString_eq_repr, Int.repr_eq_if]
  split <;> simp [Nat.toList_repr]

theorem integer_append (z : Int) (hrest : Ends rest) :
    integer ((toString z).toList ++ rest) = some ((z, true), rest) := by
  unfold integer
  rw [toList_toString_int]
  split
  next hz =>
      have hsign : sign (Nat.toDigits 10 z.toNat ++ rest) = some (false, Nat.toDigits 10 z.toNat ++ rest) := by
        unfold sign
        rw [bind_of_eq (take?_of_absent (absent_of_toDigits _ hrest (by decide))), if_neg (by decide),
          bind_of_eq (discard_of_eq (take?_of_absent (absent_of_toDigits _ hrest (by decide))))]
        rfl
      have hvalue : (z.toNat : Int) = z := Int.toNat_of_nonneg hz
      rw [bind_of_eq hsign, bind_of_eq (digits_append z.toNat hrest)]
      simp only [Bool.false_eq_true, if_false, hvalue]
      rfl
  next hz =>
      have hsign : sign ('-' :: (Nat.toDigits 10 (-z).toNat ++ rest)) =
          some (true, Nat.toDigits 10 (-z).toNat ++ rest) := by
        unfold sign
        rw [bind_of_eq (take?_cons '-' _), if_pos rfl]
        rfl
      have hvalue : -((-z).toNat : Int) = z := by omega
      rw [List.cons_append, bind_of_eq hsign, bind_of_eq (digits_append (-z).toNat hrest)]
      simp only [if_true, hvalue]
      rfl

theorem begins_toString_int (z : Int) : ∃ c chars, (toString z).toList = c :: chars ∧ beginsPart c = true := by
  rw [toList_toString_int]
  split
  next =>
      obtain ⟨c, chars, hcons⟩ := List.exists_cons_of_ne_nil (Nat.toDigits_ne_nil : Nat.toDigits 10 z.toNat ≠ [])
      have hc : c.isDigit = true := isDigit_of_mem_toDigits z.toNat c (by rw [hcons]; exact List.mem_cons_self ..)
      exact ⟨c, chars, hcons, by simp [beginsPart, Char.isAlphanum, hc]⟩
  next => exact ⟨'-', _, rfl, by decide⟩

theorem reads_int32 (i : Int32) : Reads int32 (toString i.toInt) i := by
  refine ⟨begins_toString_int i.toInt, fun rest hrest => ?_⟩
  have hsuffix : ¬['i', '3', '2'] <+: rest := hrest.absent (by decide)
  have hle : -0x80000000 ≤ i.toInt := i.le_toInt
  have hlt : i.toInt < 0x80000000 := i.toInt_lt
  unfold int32
  rw [bind_of_eq (integer_append i.toInt hrest)]
  dsimp only
  rw [if_pos rfl, bind_of_eq (discard_of_eq (word?_of_absent hsuffix)), if_pos (by simp [hle, hlt]),
    Int32.ofInt_toInt]
  rfl

/-! ## Floats -/

section Search

variable {γ δ : Type} {test : γ → Reader Bool} {x : γ}

/-- A step of the search for the first of some things that comes next. -/
def searchStep (test : γ → Reader Bool) (found : γ → δ) (x : γ) : Reader (ForInStep (Option δ × Unit)) := do
  if ← test x then return .done (some (found x), ()) else return .yield (none, ())

theorem search_of_none (found : γ → δ) {before : List γ} (h : ∀ x ∈ before, test x text = some (false, text)) :
    (forIn before (none, ()) fun x _ => searchStep test found x) text = some ((none, ()), text) := by
  induction before with
  | nil => rfl
  | cons x before ih =>
      have hstep : searchStep test found x text = some (.yield (none, ()), text) := by
        unfold searchStep
        rw [bind_of_eq (h x (List.mem_cons_self ..))]
        rfl
      rw [List.forIn_cons, bind_of_eq hstep]
      exact ih fun y hy => h y (List.mem_cons_of_mem x hy)

theorem search_of_found (found : γ → δ) (before after : List γ) (h : ∀ x ∈ before, test x text = some (false, text))
    (hx : test x text = some (true, rest)) :
    (forIn (before ++ x :: after) (none, ()) fun x _ => searchStep test found x) text =
      some ((some (found x), ()), rest) := by
  induction before with
  | nil =>
      have hstep : searchStep test found x text = some (.done (some (found x), ()), rest) := by
        unfold searchStep
        rw [bind_of_eq hx]
        rfl
      rw [List.nil_append, List.forIn_cons, bind_of_eq hstep]
      rfl
  | cons y before ih =>
      have hstep : searchStep test found y text = some (.yield (none, ()), text) := by
        unfold searchStep
        rw [bind_of_eq (h y (List.mem_cons_self ..))]
        rfl
      rw [List.cons_append, List.forIn_cons, bind_of_eq hstep]
      exact ih fun z hz => h z (List.mem_cons_of_mem y hz)

end Search

theorem anyWord?_of_none {words : List (List Char)} (h : ∀ word ∈ words, ¬word <+: text) :
    anyWord? words text = some (false, text) := by
  unfold anyWord?
  change (forIn words (none, ()) (fun word _ => searchStep word? (fun _ => true) word) >>= _) text = _
  rw [bind_of_eq (search_of_none _ fun word hword => word?_of_absent (h word hword))]
  rfl

theorem anyWord?_cons (word : List Char) (words : List (List Char)) (hrest : Ends rest) :
    anyWord? (word :: words) (word ++ rest) = some (true, rest) := by
  unfold anyWord?
  change (forIn ([] ++ word :: words) (none, ()) (fun word _ => searchStep word? (fun _ => true) word) >>= _) _ = _
  rw [bind_of_eq (search_of_found _ [] words nofun (word?_append word hrest))]
  rfl

/-- Whether a word stands next, with or without the name of the type behind it. -/
def floatWord? (word : List Char × Binary32) : Reader Bool := anyWord? [word.1, word.1 ++ ['f', '3', '2']]

theorem floatWord?_of_absent {word : List Char × Binary32} (h : ¬word.1 <+: text) :
    floatWord? word text = some (false, text) := by
  refine anyWord?_of_none ?_
  have hlong : ¬word.1 ++ ['f', '3', '2'] <+: text := fun hlong => h ((List.prefix_append _ _).trans hlong)
  simp [h, hlong]

theorem float_eq : float =
    ((forIn floatWords (none, ()) fun word _ => searchStep floatWord? Prod.snd word) >>= fun found =>
      match found.1 with
      | some x => pure x
      | none => floatDigits [['f', '3', '2']]) := by
  unfold float floatWith
  congr 1
  funext ⟨found, _⟩
  cases found <;> rfl

/-- A word is found if none of the words before it could be taken for it. -/
theorem reads_floatWord {text : String} {x : Binary32} (before after : List (List Char × Binary32))
    (hwords : floatWords = before ++ (text.toList, x) :: after)
    (hbefore : ∀ other ∈ before, ¬other.1 <+: text.toList ∧ ¬text.toList <+: other.1)
    (hbegins : text.toList.head?.any beginsPart = true) : Reads float text x := by
  refine ⟨begins_of_head? hbegins, fun rest hrest => ?_⟩
  have hskipped : ∀ other ∈ before, floatWord? other (text.toList ++ rest) = some (false, text.toList ++ rest) := by
    intro other hother
    refine floatWord?_of_absent fun hprefix => ?_
    obtain ⟨hshort, hlong⟩ := hbefore other hother
    have hcomparable := List.prefix_or_prefix_of_prefix hprefix (List.prefix_append _ rest)
    exact hcomparable.elim hshort hlong
  have hfound : floatWord? (text.toList, x) (text.toList ++ rest) = some (true, rest) := anyWord?_cons _ _ hrest
  rw [float_eq, hwords, bind_of_eq (search_of_found Prod.snd before after hskipped hfound)]
  rfl

theorem dropUnderscores_of_not_mem (allowed : Bool) (h : '_' ∉ chars) : dropUnderscores allowed chars = some chars := by
  induction chars generalizing allowed with
  | nil => rfl
  | cons c chars ih =>
      obtain ⟨hc, hchars⟩ := List.ne_and_not_mem_of_not_mem_cons h
      rw [dropUnderscores, if_neg hc.symm]
      simp only [ih _ hchars, Option.map_some]

theorem float_of_digits {x : Binary32} (hchars : ∀ c ∈ chars, isFloatChar c = true) (hunderscore : '_' ∉ chars)
    (hx : Binary32.ofLiteral? chars = some x) (hrest : Ends rest) : float (chars ++ rest) = some (x, rest) := by
  have hmarked : ∀ word ∈ floatWords, (word.1.dropWhile isFloatChar).head?.any (· ∉ endings) = true := by decide
  have hwords : ∀ word ∈ floatWords, ¬word.1 <+: chars ++ rest := fun word hword =>
    absent_of_marked hchars hrest (by decide) (hmarked word hword)
  have hsuffix : ∀ word ∈ [['f', '3', '2']], ¬word <+: rest := by
    intro word hword
    rw [List.mem_singleton.mp hword]
    exact hrest.absent (by decide)
  rw [float_eq, bind_of_eq (search_of_none Prod.snd fun word hword => floatWord?_of_absent (hwords word hword))]
  change floatDigits _ _ = _
  unfold floatDigits
  rw [bind_of_eq (takeWhile_append hchars (hrest.stops (by decide))), dropUnderscores_of_not_mem _ hunderscore,
    Option.bind_some, hx]
  dsimp only
  rw [bind_of_eq (discard_of_eq (anyWord?_of_none hsuffix))]
  rfl

theorem isFloatChar_of_isDigit {c : Char} (h : c.isDigit = true) : isFloatChar c = true := by
  simp [isFloatChar, h]

theorem reads_floatDigits {text : String} {negative : Bool} {m : Magnitude} {magnitude whole fraction : List Char}
    (htext : text.toList = (if negative then ['-'] else []) ++ magnitude)
    (h : FloatLayout.Denotes magnitude m whole fraction) : Reads float text (.number negative m) := by
  obtain ⟨hwhole, hfraction⟩ := List.forall_mem_append.mp h.digits
  obtain ⟨d, whole', hcons⟩ := List.exists_cons_of_ne_nil h.whole_ne
  have hd : d.isDigit = true := hwhole d (by rw [hcons]; exact List.mem_cons_self ..)
  have hchars : ∀ c ∈ text.toList, c = '-' ∨ c = '.' ∨ c.isDigit = true := by
    intro c hc
    rw [htext, h.text_eq, List.mem_append, List.mem_append, List.mem_cons] at hc
    rcases hc with hc | hc | hc | hc
    · cases negative with
      | false => cases hc
      | true => exact .inl (List.mem_singleton.mp hc)
    · exact .inr (.inr (hwhole c hc))
    · exact .inr (.inl hc)
    · exact .inr (.inr (hfraction c hc))
  refine ⟨?_, fun rest hrest => ?_⟩
  · rw [htext, h.text_eq, hcons]
    cases negative with
    | false => exact ⟨d, _, rfl, by simp [beginsPart, Char.isAlphanum, hd]⟩
    | true => exact ⟨'-', _, rfl, by decide⟩
  · refine float_of_digits ?_ ?_ (htext ▸ h.ofLiteral? negative) hrest
    · intro c hc
      rcases hchars c hc with rfl | rfl | hdigit
      · rfl
      · rfl
      · exact isFloatChar_of_isDigit hdigit
    · intro hunderscore
      rcases hchars '_' hunderscore with h | h | h <;> exact absurd h (by decide)

theorem reads_float (x : Binary32) : Reads float (FloatLayout.file.write x) x := by
  cases x with
  | nan negative =>
      cases negative with
      | false => exact reads_floatWord (floatWords.take 3) (floatWords.drop 4) rfl (by decide) (by decide)
      | true => exact reads_floatWord (floatWords.take 5) [] rfl (by decide) (by decide)
  | number negative m =>
      by_cases hm : m.val < infinityRank
      · obtain ⟨whole, fraction, h⟩ := FloatLayout.exists_denotes_magnitude hm
        exact reads_floatDigits (by rw [FloatLayout.write, String.toList_ofList]) h
      · have hinfinity : m = .infinity := Fin.ext (by have := m.isLt; change m.val = infinityRank; omega)
        subst hinfinity
        cases negative with
        | false => exact reads_floatWord [] (floatWords.drop 1) rfl nofun (by decide)
        | true => exact reads_floatWord (floatWords.take 2) (floatWords.drop 3) rfl (by decide) (by decide)

end Nodeflow.Ron
