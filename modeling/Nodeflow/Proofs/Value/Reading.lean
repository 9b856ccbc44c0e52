import Nodeflow.Value.Reading
import Nodeflow.Proofs.Fault
import Mathlib.Data.List.TakeWhile

/-!
# Float literals in a text

A float literal has no blanks and no commas in it. So blanks around a text, or around a part of it, do not change
what is read from it: the parts between commas are literals with blanks around them, or the text is refused.
-/

namespace Nodeflow

variable {α β : Type}

theorem mapM_eq_some_iff {f : α → Option β} {xs : List α} {ys : List β} :
    xs.mapM f = some ys ↔ List.Forall₂ (fun x y => f x = some y) xs ys := by
  induction xs generalizing ys with
  | nil => cases ys <;> simp
  | cons x xs ih =>
      rw [List.mapM_cons]
      simp only [Option.bind_eq_bind, Option.bind_eq_some_iff, Option.pure_def, Option.some.injEq, ih]
      constructor
      · rintro ⟨y, hy, ys', hys, rfl⟩
        exact .cons hy hys
      · intro h
        cases h with
        | cons hy hys => exact ⟨_, hy, _, hys, rfl⟩

/-! ## Blanks around a text -/

namespace Text

variable {core text left right : List Char}

/-- A text with blanks around it. -/
def Pads (core text : List Char) : Prop :=
  ∃ left right : List Char, (∀ c ∈ left, isBlank c) ∧ (∀ c ∈ right, isBlank c) ∧ text = left ++ core ++ right

theorem trim_blanks_append (h : ∀ c ∈ left, isBlank c) (text : List Char) : trim (left ++ text) = trim text := by
  rw [trim, trim, List.dropWhile_append_of_pos h]

theorem trim_append_blanks (h : ∀ c ∈ right, isBlank c) (text : List Char) : trim (text ++ right) = trim text := by
  have hright : ∀ c ∈ right.reverse, isBlank c := fun c hc => h c (List.mem_reverse.mp hc)
  rw [trim, trim, List.dropWhile_append]
  split_ifs with hnone
  · rw [List.isEmpty_iff.mp hnone, List.dropWhile_eq_nil_iff.mpr h]
  · rw [List.reverse_append, List.dropWhile_append_of_pos hright]

theorem trim_of_pads (h : Pads core text) : trim text = trim core := by
  obtain ⟨left, right, hleft, hright, rfl⟩ := h
  rw [trim_append_blanks hright, trim_blanks_append hleft]

theorem trim_of_no_blanks (h : ∀ c ∈ core, isBlank c = false) : trim core = core := by
  have hdrop {text : List Char} (h : ∀ c ∈ text, isBlank c = false) : text.dropWhile isBlank = text := by
    cases text with
    | nil => rfl
    | cons c text => rw [List.dropWhile_cons_of_neg (by simp [h c])]
  rw [trim, hdrop h, hdrop (by simpa using h), List.reverse_reverse]

theorem pads_trim (text : List Char) : Pads (trim text) text := by
  refine ⟨text.takeWhile isBlank, ((text.dropWhile isBlank).reverse.takeWhile isBlank).reverse, ?_, ?_, ?_⟩
  · exact fun c hc => List.mem_takeWhile_imp hc
  · exact fun c hc => List.mem_takeWhile_imp (List.mem_reverse.mp hc)
  · rw [trim, List.append_assoc, ← List.reverse_append, List.takeWhile_append_dropWhile, List.reverse_reverse,
      List.takeWhile_append_dropWhile]

theorem trim_eq_nil_iff : trim text = [] ↔ ∀ c ∈ text, isBlank c := by
  constructor
  · intro h
    obtain ⟨left, right, hleft, hright, htext⟩ := pads_trim text
    rw [h, List.append_nil] at htext
    rw [htext, List.forall_mem_append]
    exact ⟨hleft, hright⟩
  · intro h
    simp [trim, List.dropWhile_eq_nil_iff.mpr h]

end Text

namespace Literal

open Text (isBlank trim Pads)

variable {c : Char} {text : List Char}

/-! ## Characters of literals -/

/-- A visible character of ASCII other than the comma; float literals are made of such. -/
def isLiteralChar (c : Char) : Bool := 0x21 ≤ c.toNat && c.toNat ≤ 0x7E && c.toNat != 0x2C

theorem isLiteralChar_iff : isLiteralChar c ↔ (0x21 ≤ c.toNat ∧ c.toNat ≤ 0x7E) ∧ c.toNat ≠ 0x2C := by
  simp [isLiteralChar]

theorem not_separating_of_isLiteralChar (h : isLiteralChar c) : isBlank c = false ∧ c ≠ ',' := by
  rw [isLiteralChar_iff] at h
  constructor
  · simp only [isBlank, Bool.or_eq_false_iff, Bool.and_eq_false_iff, decide_eq_false_iff_not, beq_eq_false_iff_ne]
    omega
  · rintro rfl
    exact h.2 rfl

theorem isLiteralChar_of_isDigit (h : c.isDigit) : isLiteralChar c := by
  rw [Char.isDigit_iff_toNat] at h
  rw [isLiteralChar_iff]
  have h0 : '0'.toNat = 48 := rfl
  have h9 : '9'.toNat = 57 := rfl
  omega

theorem isLiteralChar_of_toLower (h : isLiteralChar c.toLower) : isLiteralChar c := by
  unfold Char.toLower at h
  split at h
  · rename_i hupper
    obtain ⟨hle, hge⟩ := hupper
    rw [ge_iff_le, UInt32.le_iff_toNat_le] at hle
    rw [UInt32.le_iff_toNat_le] at hge
    rw [isLiteralChar_iff]
    have hA : 'A'.val.toNat = 65 := rfl
    have hZ : 'Z'.val.toNat = 90 := rfl
    have hn : c.val.toNat = c.toNat := rfl
    omega
  · exact h

theorem isLiteralChar_of_splitSign (h : ∀ c ∈ (splitSign text).2, isLiteralChar c) : ∀ c ∈ text, isLiteralChar c := by
  unfold splitSign at h
  split at h
  · exact List.forall_mem_cons.mpr ⟨by decide, h⟩
  · exact List.forall_mem_cons.mpr ⟨by decide, h⟩
  · exact h

theorem isLiteralChar_of_power? {power : Int} (h : power? text = some power) : ∀ c ∈ text, isLiteralChar c := by
  cases text with
  | nil => simp
  | cons mark rest =>
      rw [power?] at h
      split_ifs at h with hmark
      dsimp only at h
      split at h
      · cases h
      rename_i hdigits
      simp only [Bool.or_eq_true, Bool.not_eq_true', not_or, Bool.not_eq_false, List.all_eq_true] at hdigits
      refine List.forall_mem_cons.mpr ⟨?_, isLiteralChar_of_splitSign fun c hc => isLiteralChar_of_isDigit (hdigits.2 c hc)⟩
      rcases (Bool.or_eq_true _ _).mp hmark with hmark | hmark
      · rw [eq_of_beq hmark]
        decide
      · rw [eq_of_beq hmark]
        decide

theorem isLiteralChar_of_dropWhile (h : ∀ c ∈ text.dropWhile Char.isDigit, isLiteralChar c) :
    ∀ c ∈ text, isLiteralChar c := by
  rw [← List.takeWhile_append_dropWhile (p := Char.isDigit) (l := text), List.forall_mem_append]
  exact ⟨fun c hc => isLiteralChar_of_isDigit (List.mem_takeWhile_imp hc), h⟩

theorem isLiteralChar_of_decimal? {d : Decimal} (h : decimal? text = some d) : ∀ c ∈ text, isLiteralChar c := by
  refine isLiteralChar_of_dropWhile ?_
  unfold decimal? at h
  dsimp only at h
  split_ifs at h
  obtain ⟨power, hpower, -⟩ := Option.map_eq_some_iff.mp h
  have hrest := isLiteralChar_of_power? hpower
  split at hrest
  · rename_i rest hpoint
    rw [hpoint]
    exact List.forall_mem_cons.mpr ⟨by decide, isLiteralChar_of_dropWhile hrest⟩
  · exact hrest

theorem isLiteralChar_of_map_toLower {word : List Char} (h : text.map Char.toLower = word)
    (hword : ∀ c ∈ word, isLiteralChar c) : ∀ c ∈ text, isLiteralChar c :=
  fun _ hc => isLiteralChar_of_toLower (hword _ (h ▸ List.mem_map_of_mem hc))

theorem isLiteralChar_of_ofLiteral? {x : Binary32} (h : Binary32.ofLiteral? text = some x) :
    ∀ c ∈ text, isLiteralChar c := by
  refine isLiteralChar_of_splitSign ?_
  unfold Binary32.ofLiteral? at h
  dsimp only at h
  split_ifs at h with hnan hinf
  · exact isLiteralChar_of_map_toLower hnan (List.all_eq_true.mp rfl)
  · rcases (Bool.or_eq_true _ _).mp hinf with hinf | hinf
    · exact isLiteralChar_of_map_toLower (of_decide_eq_true hinf) (List.all_eq_true.mp rfl)
    · exact isLiteralChar_of_map_toLower (of_decide_eq_true hinf) (List.all_eq_true.mp rfl)
  · obtain ⟨d, hd, -⟩ := Option.map_eq_some_iff.mp h
    exact isLiteralChar_of_decimal? hd

/-! ## Parts of a text -/

theorem splitCommas_eq (text : List Char) : splitCommas text = text.splitOn ',' := by
  induction text with
  | nil => rfl
  | cons c text ih =>
      obtain ⟨part, parts, hsplit⟩ := List.exists_cons_of_ne_nil (List.splitOn_ne_nil ',' text)
      rw [hsplit] at ih
      rw [List.splitOn_cons_eq_if_modifyHead, hsplit, List.modifyHead_cons, splitCommas, List.foldr_cons]
      simp only [splitCommas] at ih
      rw [ih]
      by_cases hcomma : c = ',' <;> simp [hcomma]

theorem comma_notMem_of_isBlank {blanks : List Char} (h : ∀ c ∈ blanks, isBlank c) : ',' ∉ blanks := by
  intro hmem
  exact absurd (h _ hmem) (by decide)

theorem splitOn_blanks_append {left : List Char} (h : ∀ c ∈ left, isBlank c) (text : List Char) :
    (left ++ text).splitOn ',' = (text.splitOn ',').modifyHead (left ++ ·) := by
  induction left with
  | nil => exact (congrFun List.modifyHead_id _).symm
  | cons c left ih =>
      obtain ⟨hc, hleft⟩ := List.forall_mem_cons.mp h
      have hcomma : (c == ',') = false := by
        rw [beq_eq_false_iff_ne]
        rintro rfl
        exact absurd hc (by decide)
      rw [List.cons_append, List.splitOn_cons_eq_if_modifyHead, ih hleft, hcomma, List.modifyHead_modifyHead]
      rfl

theorem splitOn_append_blanks {right : List Char} (h : ∀ c ∈ right, isBlank c) (text : List Char) :
    ∃ before last, text.splitOn ',' = before ++ [last] ∧ (text ++ right).splitOn ',' = before ++ [last ++ right] := by
  induction text with
  | nil => exact ⟨[], [], rfl, List.splitOn_eq_singleton (comma_notMem_of_isBlank h)⟩
  | cons c text ih =>
      obtain ⟨before, last, hsplit, hmore⟩ := ih
      rw [List.cons_append, List.splitOn_cons_eq_if_modifyHead, List.splitOn_cons_eq_if_modifyHead, hsplit, hmore]
      by_cases hcomma : c = ','
      · exact ⟨[] :: before, last, by simp [hcomma], by simp [hcomma]⟩
      · cases before with
        | nil => exact ⟨[], c :: last, by simp [hcomma], by simp [hcomma]⟩
        | cons part before => exact ⟨(c :: part) :: before, last, by simp [hcomma], by simp [hcomma]⟩

/-- Blanks around a text are blanks around its first and its last part. -/
theorem map_trim_splitOn_of_pads {core : List Char} (h : Pads core text) :
    (text.splitOn ',').map trim = (core.splitOn ',').map trim := by
  obtain ⟨left, right, hleft, hright, rfl⟩ := h
  obtain ⟨before, last, hsplit, hmore⟩ := splitOn_append_blanks hright (left ++ core)
  have hends : ((left ++ core ++ right).splitOn ',').map trim = ((left ++ core).splitOn ',').map trim := by
    rw [hsplit, hmore, List.map_append, List.map_append, List.map_singleton, List.map_singleton,
      Text.trim_append_blanks hright]
  rw [hends, splitOn_blanks_append hleft]
  obtain ⟨part, parts, hcore⟩ := List.exists_cons_of_ne_nil (List.splitOn_ne_nil ',' core)
  rw [hcore, List.modifyHead_cons, List.map_cons, List.map_cons, Text.trim_blanks_append hleft]

/-- A part of a text shows a number: it is a literal of the number with blanks around it. -/
def Shows (part : List Char) (x : Binary32) : Prop :=
  ∃ literal, Pads literal part ∧ Binary32.ofLiteral? literal = some x

theorem shows_iff {part : List Char} {x : Binary32} : Shows part x ↔ Binary32.ofLiteral? (trim part) = some x := by
  constructor
  · rintro ⟨literal, hpads, hliteral⟩
    have hsolid : trim literal = literal := Text.trim_of_no_blanks fun c hc =>
      (not_separating_of_isLiteralChar (isLiteralChar_of_ofLiteral? hliteral c hc)).1
    rw [Text.trim_of_pads hpads, hsolid, hliteral]
  · exact fun h => ⟨_, Text.pads_trim part, h⟩

theorem comma_notMem_of_shows {part : List Char} {x : Binary32} (h : Shows part x) : ',' ∉ part := by
  obtain ⟨literal, ⟨left, right, hleft, hright, rfl⟩, hliteral⟩ := h
  simp only [List.mem_append, not_or]
  refine ⟨⟨comma_notMem_of_isBlank hleft, fun hmem => ?_⟩, comma_notMem_of_isBlank hright⟩
  exact (not_separating_of_isLiteralChar (isLiteralChar_of_ofLiteral? hliteral _ hmem)).2 rfl

theorem not_shows_of_isBlank {x : Binary32} (h : ∀ c ∈ text, isBlank c) : ¬Shows text x := by
  rw [shows_iff, Text.trim_eq_nil_iff.mpr h]
  rintro ⟨⟩

theorem forall₂_shows_iff {parts : List (List Char)} {xs : List Binary32} : List.Forall₂ Shows parts xs ↔
    (parts.map trim).mapM Binary32.ofLiteral? = some xs := by
  rw [mapM_eq_some_iff, List.forall₂_map_left_iff]
  exact ⟨.imp fun _ _ => shows_iff.mp, .imp fun _ _ => shows_iff.mpr⟩

/-- The numbers in a text are those that its parts show; a blank text has none. -/
theorem floats?_trim_eq_some_iff {xs : List Binary32} : floats? (trim text) = some xs ↔
    ((∀ c ∈ text, isBlank c) ∧ xs = []) ∨ List.Forall₂ Shows (text.splitOn ',') xs := by
  by_cases hblank : ∀ c ∈ text, isBlank c
  · have hnone : ¬List.Forall₂ Shows (text.splitOn ',') xs := by
      rw [List.splitOn_eq_singleton (comma_notMem_of_isBlank hblank)]
      intro h
      cases h with
      | cons hshows _ => exact not_shows_of_isBlank hblank hshows
    rw [Text.trim_eq_nil_iff.mpr hblank, or_iff_left hnone, and_iff_right hblank]
    exact Option.some_inj.trans eq_comm
  · have hsome : (trim text).isEmpty = false :=
      List.isEmpty_eq_false_iff.mpr fun h => hblank (Text.trim_eq_nil_iff.mp h)
    rw [or_iff_right fun h => hblank h.1, forall₂_shows_iff, map_trim_splitOn_of_pads (Text.pads_trim text), floats?,
      hsome, splitCommas_eq, List.mapM_map]
    rfl

theorem floats?_of_shows {parts : List (List Char)} {xs : List Binary32} (h : List.Forall₂ Shows parts xs)
    (hpads : Pads ([','].intercalate parts) text) : floats? (trim text) = some xs := by
  rw [floats?_trim_eq_some_iff]
  cases h with
  | nil =>
      obtain ⟨left, right, hleft, hright, rfl⟩ := hpads
      exact .inl ⟨by simpa [or_imp, forall_and] using ⟨hleft, hright⟩, rfl⟩
  | @cons part x parts xs hpart hparts =>
      have hcommas : ∀ part' ∈ part :: parts, ',' ∉ part' := by
        intro part' hmem
        obtain ⟨x', hx'⟩ := exists_of_forall₂ (List.Forall₂.cons hpart hparts) hmem
        exact comma_notMem_of_shows hx'
      rw [forall₂_shows_iff, map_trim_splitOn_of_pads hpads, List.splitOn_intercalate ',' hcommas (List.cons_ne_nil _ _),
        ← forall₂_shows_iff]
      exact .inr (.cons hpart hparts)

theorem floats?_eq_none {part : List Char} (hpart : part ∈ text.splitOn ',') (hnone : ∀ x, ¬Shows part x)
    (hblank : ¬∀ c ∈ text, isBlank c) : floats? (trim text) = none := by
  rw [Option.eq_none_iff_forall_ne_some]
  intro xs hxs
  rcases floats?_trim_eq_some_iff.mp hxs with ⟨h, -⟩ | h
  · exact hblank h
  · obtain ⟨x, hx⟩ := exists_of_forall₂ h hpart
    exact hnone x hx

end Literal

/-! ## Values from text -/

namespace ValueType

open Literal

variable {text : String} {xs : List Binary32}

theorem type_of_parse {type : ValueType} {text : String} {v : Value} (h : type.parse text = .ok v) :
    v.type = type := by
  unfold parse at h
  dsimp only at h
  split at h
  · rename_i value hvalue
    cases h
    split at hvalue
    · obtain ⟨b, -, rfl⟩ := Option.map_eq_some_iff.mp hvalue
      rfl
    · obtain ⟨n, -, rfl⟩ := Option.map_eq_some_iff.mp hvalue
      rfl
    · obtain ⟨x, -, rfl⟩ := Option.map_eq_some_iff.mp hvalue
      rfl
    · split at hvalue
      · cases hvalue
        rfl
      · cases hvalue
    · split at hvalue
      · cases hvalue
        rfl
      · cases hvalue
    · cases hvalue
      rfl
    · obtain ⟨xs, -, rfl⟩ := Option.map_eq_some_iff.mp hvalue
      rfl
    · cases hvalue
  · cases h

/-- What is said of a text that shows no value of a type. -/
def invalid (type : ValueType) (text : String) : ValueTextError := .invalid type (String.ofList (Text.trim text.toList))

theorem parse_of_length_ne {type : ValueType} (h : floats? (Text.trim text.toList) = some xs)
    (hlength : (type = vector3 ∧ xs.length ≠ 3) ∨ (type = color ∧ xs.length ≠ 4)) :
    type.parse text = .error (type.invalid text) := by
  rcases hlength with ⟨rfl, hlength⟩ | ⟨rfl, hlength⟩
  all_goals
    simp only [parse, h]
    split
    · rename_i value hvalue
      split at hvalue
      · rename_i heq
        cases heq
        exact absurd rfl hlength
      · cases hvalue
    · rfl

theorem parse_of_floats?_eq_none {type : ValueType} (h : floats? (Text.trim text.toList) = none)
    (htype : type ∈ [floatList, vector3, color]) : type.parse text = .error (type.invalid text) := by
  simp only [List.mem_cons, List.not_mem_nil, or_false] at htype
  rcases htype with rfl | rfl | rfl
  · simp [parse, h, invalid]
  · simp [parse, h, invalid]
  · simp [parse, h, invalid]

theorem parse_of_shows {parts : List (List Char)} (hparts : List.Forall₂ Shows parts xs)
    (hpads : Text.Pads ([','].intercalate parts) text.toList) :
    floatList.parse text = .ok (.floatList xs) ∧
      (∀ x y z, xs = [x, y, z] → vector3.parse text = .ok (.vector3 x y z)) ∧
      (xs.length ≠ 3 → vector3.parse text = .error (vector3.invalid text)) ∧
      (∀ r g b a, xs = [r, g, b, a] → color.parse text = .ok (.color r g b a)) ∧
      (xs.length ≠ 4 → color.parse text = .error (color.invalid text)) := by
  have hfloats := floats?_of_shows hparts hpads
  refine ⟨by simp [parse, hfloats], ?_, fun hlength => ?_, ?_, fun hlength => ?_⟩
  · rintro x y z rfl
    simp [parse, hfloats]
  · exact parse_of_length_ne hfloats (.inl ⟨rfl, hlength⟩)
  · rintro r g b a rfl
    simp [parse, hfloats]
  · exact parse_of_length_ne hfloats (.inr ⟨rfl, hlength⟩)

/-- A part that shows no number spoils the text, unless the text is blank and read as a list. -/
theorem parse_of_not_shows {type : ValueType} {part : List Char} (hpart : part ∈ text.toList.splitOn ',')
    (hnone : ∀ x, ¬Shows part x) (htype : type ∈ [floatList, vector3, color]) : type.parse text =
      if type = floatList ∧ text.toList.all Text.isBlank then .ok (.floatList []) else .error (type.invalid text) := by
  by_cases hblank : ∀ c ∈ text.toList, Text.isBlank c
  · have hfloats := floats?_trim_eq_some_iff.mpr (.inl ⟨hblank, rfl⟩)
    simp only [List.mem_cons, List.not_mem_nil, or_false] at htype
    rcases htype with rfl | rfl | rfl
    · rw [if_pos ⟨rfl, List.all_eq_true.mpr hblank⟩]
      simp [parse, hfloats]
    · rw [if_neg (by simp)]
      exact parse_of_length_ne hfloats (.inl ⟨rfl, by simp⟩)
    · rw [if_neg (by simp)]
      exact parse_of_length_ne hfloats (.inr ⟨rfl, by simp⟩)
  · rw [if_neg fun h => hblank (List.all_eq_true.mp h.2)]
    exact parse_of_floats?_eq_none (floats?_eq_none hpart hnone hblank) htype

end ValueType

end Nodeflow
