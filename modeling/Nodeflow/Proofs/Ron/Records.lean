import Nodeflow.Ron.Record
import Nodeflow.Ron.Writing
import Nodeflow.Proofs.Ron.Reading

/-!
# Written containers that read back

Wrappers, values that may be missing, tuples and variants are read if what is inside them is read.
-/

namespace Nodeflow.Ron

open Reader

variable {α β σ : Type} {read value : Reader α} {text : String} {v : α} {rest : List Char}

theorem Reads.map (h : Reads read text v) (f : α → β) : Reads (f <$> read) text (f v) :=
  ⟨h.begins, fun rest hrest => map_of_eq (h.takes rest hrest) f⟩

theorem Reads.settles (h : Reads read text v) (lead : List Char) (hlead : lead.all isBlank = true)
    (rest : List Char) : Settles (lead ++ (text.toList ++ rest)) (text.toList ++ rest) := by
  obtain ⟨c, chars, htext, hc⟩ := h.begins
  rw [htext]
  exact .intro lead hlead (isPlain_of_beginsPart hc) (chars ++ rest)

theorem Reads.enclosed (h : Reads value text v) (next : α → Reader β) (rest : List Char) :
    (do blanks
        let v ← value
        discard comma?
        expect [')']
        next v) (text.toList ++ ')' :: rest) = next v rest := by
  have hsettles : Settles (text.toList ++ ')' :: rest) (text.toList ++ ')' :: rest) := h.settles [] rfl _
  rw [bind_of_eq (blanks_of_settles hsettles), bind_of_eq (h.takes _ (ends_cons (by decide))),
    bind_of_eq (discard_of_eq (comma?_of_ne (by decide) (by decide) rest)), bind_of_eq (expect_cons ')' rest)]

/-- A key, a colon and a value that may depend on the key. -/
theorem Reads.colon {key : Reader α} {next : α → Reader β} {keyText : String} {k : α} {w : β} (hkey : Reads key keyText k)
    (hnext : Reads (next k) text w) :
    Reads (do let k ← key
              blanks
              expect [':']
              blanks
              next k) (keyText ++ ": " ++ text) w := by
  obtain ⟨c, chars, htext, hc⟩ := hkey.begins
  refine ⟨⟨c, chars ++ ':' :: ' ' :: text.toList, by simp [htext], hc⟩, fun rest hrest => ?_⟩
  have hsplit : (keyText ++ ": " ++ text).toList ++ rest =
      keyText.toList ++ ':' :: ' ' :: (text.toList ++ rest) := by simp
  have hsettles : Settles (' ' :: (text.toList ++ rest)) (text.toList ++ rest) :=
    hnext.settles [' '] (by decide) rest
  rw [hsplit, bind_of_eq (hkey.takes _ (ends_cons (by decide))), bind_of_eq (blanks_cons (by decide) _),
    bind_of_eq (expect_cons ':' _), bind_of_eq (blanks_of_settles hsettles)]
  exact hnext.takes rest hrest

theorem recordName_paren (expected : String) (rest : List Char) :
    recordName {} expected ('(' :: rest) = some ((), '(' :: rest) := rfl

theorem reads_wrapped (expected : String) (h : Reads value text v) :
    Reads (wrapped {} expected value) (wrappedText text) v := by
  refine ⟨⟨'(', text.toList ++ [')'], by simp [wrappedText], by decide⟩, fun rest _ => ?_⟩
  have htext : (wrappedText text).toList ++ rest = '(' :: (text.toList ++ ')' :: rest) := by simp [wrappedText]
  rw [htext]
  change (recordName {} expected >>= _) _ = _
  rw [bind_of_eq (recordName_paren expected _), bind_of_eq (blanks_cons (by decide) _),
    bind_of_eq (expect_cons '(' _), h.enclosed]
  rfl

theorem reads_none (value : Reader α) : Reads (Reader.optional {} value) (optionalText none) none := by
  refine ⟨⟨'N', ['o', 'n', 'e'], by decide, by decide⟩, fun rest hrest => ?_⟩
  have htext : (optionalText none).toList = ['N', 'o', 'n', 'e'] := by decide
  unfold Reader.optional
  rw [htext, bind_of_eq (word?_append _ hrest)]
  rfl

theorem reads_some (h : Reads value text v) : Reads (Reader.optional {} value) (optionalText (some text)) (some v) := by
  refine ⟨⟨'S', 'o' :: 'm' :: 'e' :: '(' :: (text.toList ++ [')']), by simp [optionalText, variantText],
    by decide⟩, fun rest _ => ?_⟩
  have htext : (optionalText (some text)).toList ++ rest =
      ['S', 'o', 'm', 'e'] ++ '(' :: (text.toList ++ ')' :: rest) := by simp [optionalText, variantText]
  unfold Reader.optional
  rw [htext, bind_of_eq (word?_of_absent (by simp)), if_neg (by decide),
    bind_of_eq (word?_append _ (ends_cons (by decide))), if_pos rfl, bind_of_eq (blanks_cons (by decide) _),
    bind_of_eq (take?_cons '(' _), if_pos rfl, h.enclosed]
  rfl

theorem reads_tuple {parts : Reader α} {texts : List String}
    (h : ∀ rest, parts ((", ".intercalate texts).toList ++ ')' :: rest) = some (v, ')' :: rest)) :
    Reads (tuple {} parts) (tupleText texts) v := by
  have htext : (tupleText texts).toList = '(' :: ((", ".intercalate texts).toList ++ [')']) := by simp [tupleText]
  refine ⟨⟨'(', _, htext, by decide⟩, fun rest _ => ?_⟩
  change (expect ['('] >>= fun _ => parts >>= fun v => expect [')'] >>= fun _ => pure v) _ = _
  rw [htext, List.cons_append, List.append_assoc, bind_of_eq (expect_cons '(' _), List.singleton_append,
    bind_of_eq (h rest), bind_of_eq (expect_cons ')' rest)]
  rfl

/-- A part of a tuple and what separates it from the next one. -/
theorem Reads.partOf_comma (h : Reads read text v) {next : Reader β} {nextText : String} {w : β}
    (hnext : Reads next nextText w) (rest : List Char) :
    partOf read false (text.toList ++ ',' :: ' ' :: (nextText.toList ++ rest)) = some (v, nextText.toList ++ rest) := by
  have hsettles := h.settles [] rfl (',' :: ' ' :: (nextText.toList ++ rest))
  have htail : Settles (' ' :: (nextText.toList ++ rest)) (nextText.toList ++ rest) :=
    hnext.settles [' '] (by decide) rest
  unfold partOf
  rw [bind_of_eq (blanks_of_settles hsettles.settled), bind_of_eq (h.takes _ (ends_cons (by decide))),
    bind_of_eq (comma?_of_settles htail)]
  rfl

theorem Reads.partOf_last (h : Reads read text v) (rest : List Char) :
    partOf read true (text.toList ++ ')' :: rest) = some (v, ')' :: rest) := by
  have hsettles := h.settles [] rfl (')' :: rest)
  unfold partOf
  rw [bind_of_eq (blanks_of_settles hsettles.settled), bind_of_eq (h.takes _ (ends_cons (by decide))),
    bind_of_eq (comma?_of_ne (by decide) (by decide) rest)]
  rfl

/-! ## Names and variants -/

variable {meanings : List (String × α)} {word found : String}

theorem reads_name (hword : isName word.toList = true) : Reads name word word.toList :=
  ⟨begins_of_isName hword, fun _ hrest => name_append hword hrest⟩

theorem reads_variant (hword : isName word.toList = true)
    (h : meanings.find? (fun meaning => meaning.1 = word) = some (found, v)) :
    Reads (variant meanings) word v := by
  refine ⟨(reads_name hword).begins, fun rest hrest => ?_⟩
  unfold variant
  rw [bind_of_eq ((reads_name hword).takes rest hrest)]
  simp only [String.ofList_toList, h]
  rfl

theorem reads_inVariant {meanings : List (String × Reader α)} {word found : String}
    (hword : isName word.toList = true)
    (hfind : meanings.find? (fun meaning => meaning.1 = word) = some (found, value)) (h : Reads value text v) :
    Reads (variant meanings >>= inVariant) (variantText word text) v := by
  have htext : ∀ rest, (variantText word text).toList ++ rest =
      word.toList ++ '(' :: (text.toList ++ ')' :: rest) := by simp [variantText]
  have hvariant := reads_variant hword hfind
  obtain ⟨c, chars, hchars, hc⟩ := hvariant.begins
  refine ⟨⟨c, chars ++ '(' :: (text.toList ++ [')']), ?_, hc⟩, fun rest _ => ?_⟩
  · rw [← List.append_nil (variantText word text).toList, htext, hchars, List.cons_append]
  · rw [htext, bind_of_eq (hvariant.takes _ (ends_cons (by decide)))]
    unfold inVariant
    rw [bind_of_eq (blanks_cons (by decide) _), bind_of_eq (expect_cons '(' _), h.enclosed]
    rfl

end Nodeflow.Ron
