import Nodeflow.Ron.Reader
import Mathlib.Data.List.Basic

/-!
# Readers on written texts

A reader reads a written text if it takes exactly that text off the front of whatever follows, as
long as what follows begins with a character that ends every part. A written part never begins with
a blank, a comment or such a character, so the blanks in front of it are skipped without touching it.
-/

namespace Nodeflow.Ron

/-- Whether a part of a written text may begin with a character. -/
def beginsPart (c : Char) : Bool :=
  c.isAlphanum || c == '-' || c == '"' || c == '(' || c == '[' || c == '\x7b'

/-- The characters that may stand directly behind a part of a written text. -/
def endings : List Char := [',', ':', '(', ')']

/-- Nothing follows, or what follows begins with a character that ends a part. -/
def Ends (rest : List Char) : Prop := ∀ c ∈ rest.head?, c ∈ endings

/-- A reader takes a text off the front of what follows and gives a value. -/
structure Reads {α : Type} (read : Reader α) (text : String) (v : α) : Prop where
  begins : ∃ c chars, text.toList = c :: chars ∧ beginsPart c = true
  takes : ∀ rest, Ends rest → read (text.toList ++ rest) = some (v, rest)

variable {c : Char} {text rest lead word : List Char}

theorem ends_nil : Ends [] := nofun

theorem ends_cons (h : c ∈ endings) : Ends (c :: rest) := by
  intro d hd
  cases hd
  exact h

theorem begins_of_head? (h : text.head?.any beginsPart = true) :
    ∃ c chars, text = c :: chars ∧ beginsPart c = true := by
  cases text with
  | nil => cases h
  | cons c chars => exact ⟨c, chars, rfl, h⟩

/-- What follows a part is not taken for more of it. -/
theorem Ends.stops (h : Ends rest) {test : Char → Bool} (htest : endings.any test = false) :
    rest.head?.any test = false := by
  cases rest with
  | nil => rfl
  | cons c rest => simpa using List.any_eq_false.mp htest c (h c rfl)

theorem Ends.absent (h : Ends rest) (hword : word.head?.any (· ∉ endings) = true) : ¬word <+: rest := by
  rintro ⟨tail, rfl⟩
  cases word with
  | nil => cases hword
  | cons c word => simp [h c rfl] at hword

/-- Whether skipping blanks and comments stops at a character. -/
def isPlain (c : Char) : Bool := !isBlank c && c != '/'

theorem isPlain_of_beginsPart (h : beginsPart c = true) : isPlain c = true := by
  by_contra hplain
  have hc : isBlank c = true ∨ c = '/' := by
    by_cases hblank : isBlank c = true
    · exact .inl hblank
    · exact .inr (by simpa [isPlain, hblank] using hplain)
  simp only [isBlank, Bool.or_eq_true, beq_iff_eq, or_assoc] at hc
  rcases hc with rfl | rfl | rfl | rfl | rfl | rfl | rfl | rfl | rfl | rfl | rfl | rfl <;>
    exact absurd h (by decide)

theorem afterBlanks_cons (h : isPlain c = true) (rest : List Char) :
    afterBlanks .blanks (c :: rest) = some (c :: rest) := by
  obtain ⟨hblank, hslash⟩ : isBlank c = false ∧ c ≠ '/' := by simpa [isPlain] using h
  unfold afterBlanks
  split <;> simp_all

theorem afterBlanks_append (h : lead.all isBlank = true) (text : List Char) :
    afterBlanks .blanks (lead ++ text) = afterBlanks .blanks text := by
  induction lead with
  | nil => rfl
  | cons c lead ih =>
      obtain ⟨hc, hlead⟩ : isBlank c = true ∧ lead.all isBlank = true := by simpa using h
      have hslash : c ≠ '/' := by
        rintro rfl
        exact absurd hc (by decide)
      have hstep : afterBlanks .blanks (c :: (lead ++ text)) = afterBlanks .blanks (lead ++ text) := by
        conv_lhs => unfold afterBlanks
        split <;> simp_all
      rw [List.cons_append, hstep, ih hlead]

/-- Behind its blanks a text goes on in some way. -/
inductive Settles : List Char → List Char → Prop
  | intro (lead : List Char) (h : lead.all isBlank = true) {c : Char} (hc : isPlain c = true) (rest : List Char) :
      Settles (lead ++ c :: rest) (c :: rest)

theorem Settles.cons (h : isPlain c = true) (rest : List Char) : Settles (c :: rest) (c :: rest) :=
  .intro [] rfl h rest

theorem Settles.settled {settled : List Char} (h : Settles text settled) : Settles settled settled := by
  cases h with
  | intro lead hlead hc rest => exact .cons hc rest

namespace Reader

variable {α β : Type} {read : Reader α} {v : α}

/-! ## Steps of a reader -/

theorem bind_of_eq (h : read text = some (v, rest)) (next : α → Reader β) :
    (read >>= next) text = next v rest := by
  change (read text).bind _ = _
  rw [h]
  rfl

theorem bind_eq_some_iff {next : α → Reader β} {w : β} :
    (read >>= next) text = some (w, rest) ↔ ∃ v mid, read text = some (v, mid) ∧ next v mid = some (w, rest) := by
  change (read text).bind _ = _ ↔ _
  rw [Option.bind_eq_some_iff]
  exact ⟨fun ⟨(v, mid), h⟩ => ⟨v, mid, h⟩, fun ⟨v, mid, h⟩ => ⟨(v, mid), h⟩⟩

theorem get_bind (next : List Char → Reader β) (text : List Char) :
    ((get : Reader (List Char)) >>= next) text = next text text := rfl

theorem peek?_bind (next : Option Char → Reader β) (text : List Char) :
    (peek? >>= next) text = next text.head? text := rfl

theorem map_of_eq (h : read text = some (v, rest)) (f : α → β) :
    (f <$> read) text = some (f v, rest) := by
  change (read text).bind _ = _
  rw [h]
  rfl

theorem discard_of_eq (h : read text = some (v, rest)) : discard read text = some ((), rest) :=
  map_of_eq h fun _ => PUnit.unit

theorem take?_append (word rest : List Char) : take? word (word ++ rest) = some (true, rest) := by
  change (if word.isPrefixOf (word ++ rest) = true then _ else _ : Reader Bool) (word ++ rest) = _
  rw [if_pos (by simp)]
  change some (true, (word ++ rest).drop word.length) = _
  rw [List.drop_left]

theorem take?_of_absent (h : ¬word <+: text) : take? word text = some (false, text) := by
  change (if word.isPrefixOf text = true then _ else _ : Reader Bool) text = _
  rw [if_neg (by simpa using h)]
  rfl

theorem take?_cons (c : Char) (rest : List Char) : take? [c] (c :: rest) = some (true, rest) :=
  take?_append [c] rest

theorem expect_append (word rest : List Char) : expect word (word ++ rest) = some ((), rest) := by
  unfold expect
  rw [bind_of_eq (take?_append word rest)]
  rfl

theorem expect_cons (c : Char) (rest : List Char) : expect [c] (c :: rest) = some ((), rest) :=
  expect_append [c] rest

theorem takeWhile_append {test : Char → Bool} (hword : ∀ c ∈ word, test c = true)
    (hrest : rest.head?.any test = false) : takeWhile test (word ++ rest) = some (word, rest) := by
  change some ((word ++ rest).takeWhile test, (word ++ rest).dropWhile test) = _
  rw [List.takeWhile_append_of_pos hword, List.dropWhile_append_of_pos hword]
  cases rest with
  | nil => simp
  | cons c rest => simp_all

/-- A text that is marked by a character which neither belongs to a part nor ends one does not come next. -/
theorem absent_of_marked {test : Char → Bool} {marked : List Char} (hword : ∀ c ∈ word, test c = true)
    (hrest : Ends rest) (htest : endings.any test = false)
    (hmark : (marked.dropWhile test).head?.any (· ∉ endings) = true) : ¬marked <+: word ++ rest := by
  rintro ⟨tail, heq⟩
  have hdrop : (marked ++ tail).dropWhile test = rest := by
    have := takeWhile_append hword (hrest.stops htest)
    rw [heq]
    exact congrArg Prod.snd (Option.some.inj this)
  cases hmarked : marked.dropWhile test with
  | nil => simp [hmarked] at hmark
  | cons mark more =>
      rw [List.dropWhile_append, hmarked] at hdrop
      have hends : mark ∈ endings := hrest mark (by rw [← hdrop]; rfl)
      simp [hmarked, hends] at hmark

theorem word?_append (word : List Char) (hrest : Ends rest) : word? word (word ++ rest) = some (true, rest) := by
  change (if (word.isPrefixOf (word ++ rest) &&
    !((word ++ rest).drop word.length).head?.any Text.continuesName) = true then _ else _ : Reader Bool)
      (word ++ rest) = _
  rw [if_pos (by simpa using hrest.stops (by decide : endings.any Text.continuesName = false))]
  change some (true, (word ++ rest).drop word.length) = _
  rw [List.drop_left]

theorem word?_of_absent (h : ¬word <+: text) : word? word text = some (false, text) := by
  change (if (word.isPrefixOf text && _) = true then _ else _ : Reader Bool) text = _
  rw [if_neg (by simpa using fun hword => absurd hword h)]
  rfl

theorem blanks_of_settles (h : Settles text rest) : blanks text = some ((), rest) := by
  cases h with
  | intro lead hlead hc tail =>
      change (afterBlanks .blanks (lead ++ _ :: tail)).map _ = _
      rw [afterBlanks_append hlead, afterBlanks_cons hc]
      rfl

theorem blanks_cons (h : isPlain c = true) (rest : List Char) : blanks (c :: rest) = some ((), c :: rest) :=
  blanks_of_settles (.cons h rest)

theorem comma?_of_settles (h : Settles text rest) : comma? (',' :: text) = some (true, rest) := by
  unfold comma?
  rw [bind_of_eq (blanks_cons (by decide) _), bind_of_eq (take?_cons ',' _), if_pos rfl,
    bind_of_eq (blanks_of_settles h)]
  rfl

theorem comma?_of_ne (h : isPlain c = true) (hcomma : c ≠ ',') (rest : List Char) :
    comma? (c :: rest) = some (false, c :: rest) := by
  unfold comma?
  rw [bind_of_eq (blanks_cons h _), bind_of_eq (take?_of_absent (by simpa using Ne.symm hcomma))]
  rfl

/-! ## Names -/

/-- Whether a text is a name in plain letters, digits and underscores. -/
def isName (word : List Char) : Bool :=
  word.head?.any (fun c => startsName c && beginsPart c) && word.all Text.continuesName

theorem begins_of_isName (h : isName word = true) : ∃ c chars, word = c :: chars ∧ beginsPart c = true := by
  cases word with
  | nil => cases h
  | cons c word => exact ⟨c, word, rfl, by simp_all [isName]⟩

theorem name?_append (hword : isName word = true) (hrest : Ends rest) :
    name? (word ++ rest) = some (some word, rest) := by
  obtain ⟨hstart, hword⟩ : word.head?.any (fun c => startsName c && beginsPart c) = true ∧
      ∀ c ∈ word, Text.continuesName c = true := by
    simpa [isName] using hword
  have hends : endings.any Text.continuesName = false := by decide
  have hopenings : ∀ opening ∈ ['r', '#'] :: literalOpenings,
      (opening.dropWhile Text.continuesName).head?.any (· ∉ endings) = true := by decide
  have hmarked : ∀ opening ∈ ['r', '#'] :: literalOpenings, ¬opening <+: word ++ rest := fun opening h =>
    absent_of_marked hword hrest hends (hopenings opening h)
  obtain ⟨hraw, hliteral⟩ := List.forall_mem_cons.mp hmarked
  unfold name?
  rw [get_bind, if_neg (by simpa using hliteral)]
  generalize htext : word ++ rest = text at *
  split
  next raw => exact absurd ⟨raw, rfl⟩ hraw
  next c tail _ =>
      have hc : startsName c = true := by
        cases word with
        | nil => cases hstart
        | cons d word =>
            cases htext
            exact (Bool.and_eq_true_iff.mp hstart).1
      rw [if_pos hc, ← htext, bind_of_eq (takeWhile_append hword (hrest.stops hends))]
      rfl
  next => simp_all

theorem name_append (hword : isName word = true) (hrest : Ends rest) :
    name (word ++ rest) = some (word, rest) := by
  have hraw : rest.head?.any isRawNameChar = false := hrest.stops (by decide)
  unfold name
  rw [get_bind, bind_of_eq (name?_append hword hrest)]
  simp only [peek?_bind, hraw, Bool.and_false, Bool.false_eq_true, if_false]
  rfl

end Reader

end Nodeflow.Ron
