import Nodeflow.Ron.Reader
import Nodeflow.Text.Hex
import Nodeflow.Decimal.Reading

/-!
# Plain values of the object notation

Texts are quoted, with escapes behind backslashes, or raw between hash marks. Numbers may have
underscores between their digits, whole numbers may be written in four bases, and a number may end
in the name of its type.
-/

namespace Nodeflow.Ron

/-! ## Texts -/

/-- The character that bytes encode, if they encode exactly one. -/
def charOfBytes? (bytes : List Nat) : Option Char :=
  match (String.fromUTF8? ⟨(bytes.map UInt8.ofNat).toArray⟩).map String.toList with
  | some [c] => some c
  | _ => none

/-- A character given by its bytes, of which some have been read and some may follow. -/
def escapedBytes : (more : Nat) → (bytes : List Nat) → List Char → Option (Char × List Char)
  | 0, bytes, rest => (charOfBytes? bytes).map fun c => (c, rest)
  | more + 1, bytes, text =>
    match charOfBytes? bytes, text with
    | some c, rest => some (c, rest)
    | none, '\\' :: 'x' :: a :: b :: rest =>
      (Text.digitsValue? 16 [a, b]).bind fun byte => escapedBytes more (bytes ++ [byte]) rest
    | none, _ => none

/-- A character given by its number, up to the closing brace. -/
def escapedNumber (text : List Char) : Option (Char × List Char) :=
  let digits := (text.take 6).takeWhile (· ≠ '\x7d')
  match text.drop digits.length with
  | '\x7d' :: rest =>
    (Text.digitsValue? 16 digits).bind fun n =>
      if digits.isEmpty || !Nat.isValidChar n then none else some (Char.ofNat n, rest)
  | _ => none

def letterEscapes : List (Char × Char) :=
  [('\'', '\''), ('"', '"'), ('\\', '\\'), ('n', '\n'), ('r', '\r'), ('t', '\t'), ('0', '\x00')]

/-- The character that an escape stands for, behind its backslash. -/
def escape? : List Char → Option (Char × List Char)
  | 'x' :: a :: b :: rest =>
    (Text.digitsValue? 16 [a, b]).bind fun byte => escapedBytes 3 [byte] rest
  | 'u' :: '\x7b' :: rest => escapedNumber rest
  | letter :: rest => (letterEscapes.lookup letter).map fun c => (c, rest)
  | [] => none

theorem length_escapedBytes {more : Nat} {bytes : List Nat} {text rest : List Char} {c : Char}
    (h : escapedBytes more bytes text = some (c, rest)) : rest.length ≤ text.length := by
  induction more generalizing bytes text with
  | zero =>
    obtain ⟨_, _, h⟩ := Option.map_eq_some_iff.1 h
    cases h
    exact Nat.le_refl _
  | succ more ih =>
    unfold escapedBytes at h
    split at h
    · cases h
      exact Nat.le_refl _
    · obtain ⟨byte, _, h⟩ := Option.bind_eq_some_iff.1 h
      have := ih h
      simp; omega
    · simp at h

theorem length_escapedNumber {text rest : List Char} {c : Char}
    (h : escapedNumber text = some (c, rest)) : rest.length ≤ text.length := by
  simp only [escapedNumber] at h
  split at h
  · rename_i tail heq
    obtain ⟨n, _, h⟩ := Option.bind_eq_some_iff.1 h
    have := congrArg List.length heq
    split at h
    · cases h
    · cases h
      simp at this; omega
  · cases h

theorem length_escape? {text rest : List Char} {c : Char} (h : escape? text = some (c, rest)) :
    rest.length < text.length := by
  unfold escape? at h
  split at h
  · obtain ⟨byte, _, h⟩ := Option.bind_eq_some_iff.1 h
    have := length_escapedBytes h
    simp; omega
  · have := length_escapedNumber h
    simp; omega
  · obtain ⟨_, _, h⟩ := Option.map_eq_some_iff.1 h
    cases h
    exact Nat.lt_succ_self _
  · cases h

/-- The characters of a quoted text, up to its closing quote. -/
def quotedRest (text : List Char) : Option (List Char × List Char) :=
  match text with
  | [] => none
  | c :: rest =>
    if c = '"' then some ([], rest)
    else if c = '\\' then
      match _escape : escape? rest with
      | some (c, after) => (quotedRest after).map fun (chars, rest) => (c :: chars, rest)
      | none => none
    else (quotedRest rest).map fun (chars, rest) => (c :: chars, rest)
termination_by text.length
decreasing_by
  · have := length_escape? _escape
    simp; omega
  · simp

/-- The characters of a raw text, up to a quote and a number of hash marks. -/
def rawRest (hashes : Nat) : List Char → Option (List Char × List Char)
  | [] => none
  | c :: rest =>
    if c = '"' && (List.replicate hashes '#').isPrefixOf rest then some ([], rest.drop hashes)
    else (rawRest hashes rest).map fun (chars, rest) => (c :: chars, rest)

namespace Reader

def rawText : Reader (List Char) := do
  let hashes ← takeWhile (· == '#')
  expect ['"']
  ofFunction (rawRest hashes.length)

def text : Reader String := do
  if ← take? ['"'] then return String.ofList (← ofFunction quotedRest)
  else if ← take? ['r'] then return String.ofList (← rawText)
  else failure

/-! ## Truth values and numbers -/

def bool : Reader Bool := do
  if ← word? ['t', 'r', 'u', 'e'] then return true
  else if ← word? ['f', 'a', 'l', 's', 'e'] then return false
  else failure

/-- Takes an optional sign; tells whether it is a minus. -/
def sign : Reader Bool := do
  if ← take? ['-'] then return true
  discard (take? ['+'])
  return false

/-- Whether a character may be part of a whole number in some base. -/
def isIntChar (c : Char) : Bool := (Text.hexValue? c).isSome || c == '_'

/-- The base of a whole number; tells too whether the name of a type may follow its digits directly. -/
def base : Reader (Nat × Bool) := do
  if ← take? ['0', 'b'] then return (2, true)
  else if ← take? ['0', 'x'] then return (16, false)
  else if ← take? ['0', 'o'] then return (8, false)
  else return (10, true)

/-- A whole number without its sign; tells too whether the name of a type may follow directly. -/
def digits : Reader (Nat × Bool) := do
  let (base, open_) ← base
  let chars ← takeWhile isIntChar
  if chars.isEmpty || chars.head? == some '_' then failure
  match Text.digitsValue? base (chars.filter (· != '_')) with
  | some n => return (n, open_)
  | none => failure

def integer : Reader (Int × Bool) := do
  let negative ← sign
  let (n, open_) ← digits
  return (if negative then -(n : Int) else n, open_)

def int32 : Reader Int32 := do
  let (n, open_) ← integer
  if open_ then discard (word? ['i', '3', '2'])
  if -0x80000000 ≤ n && n < 0x80000000 then return Int32.ofInt n else failure

/-- The words for floats that have no digits. -/
def floatWords : List (List Char × Binary32) :=
  [(['i', 'n', 'f'], .number false .infinity),
    (['+', 'i', 'n', 'f'], .number false .infinity),
    (['-', 'i', 'n', 'f'], .number true .infinity),
    (['N', 'a', 'N'], .nan false),
    (['+', 'N', 'a', 'N'], .nan false),
    (['-', 'N', 'a', 'N'], .nan true)]

def isFloatChar (c : Char) : Bool :=
  c.isDigit || c == 'e' || c == 'E' || c == '.' || c == '+' || c == '-' || c == '_'

/-- Drops the underscores of a float; each has to follow a digit or the mark of the power of ten. -/
def dropUnderscores : (allowed : Bool) → List Char → Option (List Char)
  | _, [] => some []
  | allowed, c :: rest =>
    if c = '_' then if allowed then dropUnderscores allowed rest else none
    else
      let allowed := if c == '.' then false else allowed || c.isDigit || c == 'e' || c == 'E'
      (dropUnderscores allowed rest).map (c :: ·)

/-- A float written in digits, which the name of its type may follow. -/
def floatDigits (suffixes : List (List Char)) : Reader Binary32 := do
  let chars ← takeWhile isFloatChar
  match (dropUnderscores false chars).bind Binary32.ofLiteral? with
  | some x =>
    discard (anyWord? suffixes)
    return x
  | none => failure

def floatWith (suffixes : List (List Char)) : Reader Binary32 := do
  for (word, x) in floatWords do
    if ← anyWord? (word :: suffixes.map (word ++ ·)) then return x
  floatDigits suffixes

def float : Reader Binary32 := floatWith [['f', '3', '2']]

end Reader

end Nodeflow.Ron
