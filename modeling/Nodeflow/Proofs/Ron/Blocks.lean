import Nodeflow.Proofs.Ron.Records

/-!
# Written blocks that read back

The lines of a block are read one part after the other. What is collected on the way is the state of
the reader, so that lists, maps and records differ only in what a part adds to it.
-/

namespace Nodeflow.Ron

open Reader

variable {α β κ σ : Type} {part : σ → Reader σ} {s s' : σ} {texts : List String} {inner rest lead : List Char}
  {close : Char}

/-- Parts with blanks in front of each and a comma behind each, and blanks at the end. -/
inductive Laid : List String → List Char → Prop
  | nil {lead : List Char} (h : lead.all isBlank = true) : Laid [] lead
  | cons {lead inner : List Char} {text : String} {texts : List String} (h : lead.all isBlank = true)
      (hrest : Laid texts inner) : Laid (text :: texts) (lead ++ (text.toList ++ ',' :: inner))

/-- The parts are read one after the other. -/
inductive ReadsAll (part : σ → Reader σ) : σ → List String → σ → Prop
  | nil {s : σ} : ReadsAll part s [] s
  | cons {s s' s'' : σ} {text : String} {texts : List String} (h : Reads (part s) text s')
      (hrest : ReadsAll part s' texts s'') : ReadsAll part s (text :: texts) s''

theorem Laid.length_le (h : Laid texts inner) : texts.length ≤ inner.length := by
  induction h with
  | nil h => exact Nat.zero_le _
  | cons h hrest ih => simp only [List.length_cons, List.length_append]; omega

theorem all_isBlank_indent (depth : Nat) : (indent depth).toList.all isBlank = true := by
  rw [indent, String.toList_ofList]
  exact List.all_eq_true.mpr fun c hc => List.eq_of_mem_replicate hc ▸ rfl

theorem laid_lines (depth : Nat) {final : List Char} (hfinal : final.all isBlank = true)
    (hlead : lead.all isBlank = true) (texts : List String) :
    Laid texts (lead ++
      (texts.flatMap (fun text => (indent depth).toList ++ (text.toList ++ [',', '\n'])) ++ final)) := by
  induction texts generalizing lead with
  | nil => exact .nil (by simp [hlead, hfinal])
  | cons text texts ih =>
      have hindent : (lead ++ (indent depth).toList).all isBlank = true := by
        rw [List.all_append, hlead, all_isBlank_indent]
        rfl
      have hnewline : ['\n'].all isBlank = true := by decide
      have hlaid : Laid (text :: texts) _ := .cons hindent (ih hnewline)
      simpa using hlaid

theorem exists_laid_block {opening closing : String} {first last : Char} (hfirst : opening.toList = [first])
    (hlast : closing.toList = [last]) (depth : Nat) (texts : List String) :
    ∃ inner, Laid texts inner ∧ (block opening closing depth texts).toList = first :: (inner ++ [last]) := by
  by_cases hempty : texts = []
  · subst hempty
    exact ⟨[], .nil rfl, by simp [block, hfirst, hlast]⟩
  · have hnewline : ['\n'].all isBlank = true := by decide
    refine ⟨_, laid_lines (depth + 1) (all_isBlank_indent depth) hnewline texts, ?_⟩
    simp [block, hempty, hfirst, hlast, List.flatMap_map]

/-! ## Reading the parts -/

/-- Behind the blanks in front of the first part, all parts are read up to the closing character. -/
theorem Laid.exists_settled (h : Laid texts inner) (hparts : ReadsAll part s texts s')
    (hclose : isPlain close = true) (hbegins : beginsPart close = false) (rest : List Char) :
    ∃ settled, Settles (inner ++ close :: rest) settled ∧ ∀ bound, texts.length < bound.length →
      foldBounded close part bound s settled = some (s', close :: rest) := by
  induction h generalizing s with
  | nil hlead =>
      cases hparts
      refine ⟨close :: rest, .intro _ hlead hclose rest, ?_⟩
      intro bound hbound
      obtain ⟨b, bound, rfl⟩ := List.exists_cons_of_length_pos hbound
      unfold foldBounded
      rw [bind_of_eq (blanks_cons hclose rest), peek?_bind, List.head?_cons, if_pos rfl]
      rfl
  | @cons lead inner text texts hlead hrest ih =>
      cases hparts with
      | cons h hparts =>
          obtain ⟨settled, hsettles, hfold⟩ := ih hparts
          have hhere := h.settles lead hlead (',' :: (inner ++ close :: rest))
          refine ⟨_, by simpa using hhere, ?_⟩
          · intro bound hbound
            obtain ⟨b, bound, rfl⟩ := List.exists_cons_of_length_pos (Nat.zero_lt_of_lt hbound)
            have hne : (text.toList ++ ',' :: (inner ++ close :: rest)).head? ≠ some close := by
              obtain ⟨c, chars, htext, hc⟩ := h.begins
              rw [htext]
              rintro ⟨⟩
              exact Bool.false_ne_true (hbegins.symm.trans hc)
            unfold foldBounded
            rw [bind_of_eq (blanks_of_settles hhere.settled), peek?_bind, if_neg hne,
              bind_of_eq (h.takes _ (ends_cons (by decide))), bind_of_eq (comma?_of_settles hsettles), if_pos rfl]
            exact hfold bound (Nat.lt_of_succ_lt_succ hbound)

theorem Laid.foldParts (h : Laid texts inner) (hparts : ReadsAll part s texts s')
    (hclose : isPlain close = true) (hbegins : beginsPart close = false) (rest : List Char) :
    foldParts close part s (inner ++ close :: rest) = some (s', rest) := by
  obtain ⟨settled, hsettles, hfold⟩ := h.exists_settled hparts hclose hbegins rest
  have hbound : texts.length < (close :: (inner ++ close :: rest)).length := by
    have := h.length_le
    simp only [List.length_cons, List.length_append]
    omega
  have hopen : foldOpen close part s (inner ++ close :: rest) = some (s', close :: rest) := by
    rw [← hfold _ hbound]
    unfold foldOpen
    rw [get_bind]
    unfold foldBounded
    rw [bind_of_eq (blanks_of_settles hsettles), bind_of_eq (blanks_of_settles hsettles.settled)]
  unfold Reader.foldParts
  rw [bind_of_eq hopen, bind_of_eq (expect_cons close rest)]
  rfl

/-! ## Lists, maps and records -/

theorem readsAll_push {read : Reader α} {write : α → String} {xs : List α} (h : ∀ x ∈ xs, Reads read (write x) x)
    (found : List α) :
    ReadsAll (fun found => (· :: found) <$> read) found (xs.map write) (xs.reverse ++ found) := by
  induction xs generalizing found with
  | nil => exact .nil
  | cons x xs ih =>
      have hrest := ih (fun y hy => h y (List.mem_cons_of_mem x hy)) (x :: found)
      rw [List.reverse_cons, List.append_assoc]
      exact .cons ((h x (List.mem_cons_self ..)).map (· :: found)) hrest

theorem Laid.parts {read : Reader α} {write : α → String} {xs : List α} (hlaid : Laid (xs.map write) inner)
    (h : ∀ x ∈ xs, Reads read (write x) x) (hclose : isPlain close = true) (hbegins : beginsPart close = false)
    (rest : List Char) : parts close read (inner ++ close :: rest) = some (xs, rest) := by
  unfold Reader.parts
  rw [bind_of_eq (hlaid.foldParts (readsAll_push h []) hclose hbegins rest), List.append_nil, List.reverse_reverse]
  rfl

theorem reads_block {read : Reader α} {v : α} {opening closing : String} (first last : Char)
    (hfirst : opening.toList = [first]) (hlast : closing.toList = [last]) (hbegins : beginsPart first = true)
    (depth : Nat) (texts : List String)
    (h : ∀ inner, Laid texts inner → ∀ rest, read (first :: (inner ++ last :: rest)) = some (v, rest)) :
    Reads read (block opening closing depth texts) v := by
  obtain ⟨inner, hlaid, htext⟩ := exists_laid_block hfirst hlast depth texts
  refine ⟨⟨first, _, htext, hbegins⟩, fun rest _ => ?_⟩
  rw [htext, List.cons_append, List.append_assoc]
  exact h inner hlaid rest

theorem reads_list {read : Reader α} {write : α → String} {xs : List α} (depth : Nat)
    (h : ∀ x ∈ xs, Reads read (write x) x) : Reads (list read) (listBlock depth (xs.map write)) xs := by
  refine reads_block '[' ']' (by decide) (by decide) (by decide) depth _ fun inner hlaid rest => ?_
  unfold Reader.list
  rw [bind_of_eq (expect_cons '[' _)]
  exact hlaid.parts h (by decide) (by decide) rest

theorem reads_map {key : Reader κ} {value : Reader α} (entries : List (κ × α)) (keyText : κ → String)
    (valueText : α → String) (depth : Nat)
    (h : ∀ entry ∈ entries, Reads key (keyText entry.1) entry.1 ∧ Reads value (valueText entry.2) entry.2) :
    Reads (map key value) (mapBlock depth (entries.map fun (k, v) => (keyText k, valueText v))) entries := by
  have hentries : ∀ e ∈ entries, Reads (entry key value) (keyText e.1 ++ ": " ++ valueText e.2) e := by
    intro e he
    obtain ⟨hkey, hvalue⟩ := h e he
    exact hkey.colon (hvalue.map (e.1, ·))
  unfold mapBlock
  rw [List.map_map]
  refine reads_block '\x7b' '\x7d' (by decide) (by decide) (by decide) depth _ fun inner hlaid rest => ?_
  unfold Reader.map
  rw [bind_of_eq (expect_cons '\x7b' _)]
  exact hlaid.parts hentries (by decide) (by decide) rest

/-- The fields of a record are read one after the other. -/
inductive ReadsFields (field : σ → String → Option (Reader σ)) : σ → List (String × String) → σ → Prop
  | nil {s : σ} : ReadsFields field s [] s
  | cons {s s' s'' : σ} {name text : String} {fields : List (String × String)} {read : Reader σ}
      (hname : isName name.toList = true) (hfield : field s name = some read) (h : Reads read text s')
      (hrest : ReadsFields field s' fields s'') : ReadsFields field s ((name, text) :: fields) s''

theorem reads_record {field : σ → String → Option (Reader σ)} {fields : List (String × String)}
    (h : ReadsFields field s fields s') (expected : String) (levels depth : Nat) :
    Reads (record {} levels expected field s) (recordBlock depth fields) s' := by
  refine reads_block '(' ')' (by decide) (by decide) (by decide) depth _ fun inner hlaid rest => ?_
  unfold record
  rw [bind_of_eq (recordName_paren expected _), bind_of_eq (blanks_cons (by decide) _), bind_of_eq (expect_cons '(' _)]
  refine hlaid.foldParts ?_ (by decide) (by decide) rest
  clear hlaid
  induction h with
  | nil => exact .nil
  | cons hname hfield h hrest ih =>
      refine .cons ((reads_name hname).colon ?_) ih
      rw [String.ofList_toList, hfield]
      exact h

/-! ## Whole texts -/

theorem Reads.header {read : Reader α} {text : String} {v : α} (h : Reads read text v) :
    header text.toList = some ({}, text.toList) := by
  obtain ⟨c, chars, htext, hc⟩ := h.begins
  have hne : some c ≠ some '#' := by
    rintro ⟨⟩
    exact absurd hc (by decide)
  unfold Reader.header
  rw [htext, bind_of_eq (blanks_cons (isPlain_of_beginsPart hc) chars), get_bind]
  unfold attributes
  rw [peek?_bind, List.head?_cons, if_neg hne]
  rfl

theorem whole_eq (value : Extensions → Reader α) (text : String) :
    whole value text = ((Reader.header >>= fun x => value x >>= fun v => blanks >>= fun _ => get >>= fun rest =>
      if rest.isEmpty = true then pure v else failure) text.toList).map Prod.fst := rfl

theorem whole_of_reads {value : Extensions → Reader α} {text : String} {v : α} (h : Reads (value {}) text v) :
    whole value text = some v := by
  have htakes : value {} text.toList = some (v, []) := by simpa using h.takes [] ends_nil
  have hblanks : blanks [] = some ((), []) := rfl
  rw [whole_eq, bind_of_eq h.header, bind_of_eq htakes, bind_of_eq hblanks]
  rfl

theorem exists_of_whole {value : Extensions → Reader α} {text : String} {v : α} (h : whole value text = some v) :
    ∃ x before after, value x before = some (v, after) := by
  rw [whole_eq, Option.map_eq_some_iff] at h
  obtain ⟨⟨_, after⟩, h, rfl⟩ := h
  obtain ⟨x, before, -, h⟩ := bind_eq_some_iff.mp h
  obtain ⟨v, behind, hv, h⟩ := bind_eq_some_iff.mp h
  obtain ⟨-, mid, -, h⟩ := bind_eq_some_iff.mp h
  rw [get_bind] at h
  split at h
  next =>
      cases h
      exact ⟨x, before, behind, hv⟩
  next => cases h

end Nodeflow.Ron
