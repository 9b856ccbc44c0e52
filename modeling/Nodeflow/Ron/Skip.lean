import Nodeflow.Ron.Scalar
import Nodeflow.Ron.Extension
import Nodeflow.Ron.Sequence

/-!
# Skipping values

A record may have fields that nobody asks for. Their values can be anything the notation has; they
are read for their form alone. Values may be nested to a limited depth, where a container takes one
level and each of its parts another.
-/

namespace Nodeflow.Ron.Reader

/-- The names of the types of whole numbers, with their least and greatest value. -/
def integerTypes : List (List Char × Int × Int) :=
  [(['i', '8'], -0x80, 0x7F), (['i', '1', '6'], -0x8000, 0x7FFF),
    (['i', '3', '2'], -0x80000000, 0x7FFFFFFF),
    (['i', '6', '4'], -0x8000000000000000, 0x7FFFFFFFFFFFFFFF),
    (['u', '8'], 0, 0xFF), (['u', '1', '6'], 0, 0xFFFF), (['u', '3', '2'], 0, 0xFFFFFFFF),
    (['u', '6', '4'], 0, 0xFFFFFFFFFFFFFFFF)]

def byteChar : Reader Unit := do
  if ← take? ['\\'] then
    match ← get with
    | 'x' :: a :: b :: rest =>
      if (Text.digitsValue? 16 [a, b]).isNone then failure
      set rest
    | 'u' :: _ => failure
    | _ => discard (ofFunction escape?)
  else
    match ← get with
    | c :: rest =>
      if 0x80 ≤ c.toNat then failure
      set rest
    | [] => failure
  expect ['\'']

def anyInteger : Reader Unit := do
  if ← take? ['b', '\''] then byteChar
  else
    let (n, open_) ← integer
    if open_ then
      for (word, least, greatest) in integerTypes do
        if ← word? word then
          if n < least || greatest < n then failure
          return
    if n < -0x8000000000000000 || 0xFFFFFFFFFFFFFFFF < n then failure

def anyFloat : Reader Unit := discard (floatWith [['f', '3', '2'], ['f', '6', '4']])

/-- Whether the text goes on as a float rather than as a whole number. -/
def looksLikeFloat : Reader Bool := do
  let text ← get
  let unsigned := match text with
    | '+' :: rest | '-' :: rest => rest
    | _ => text
  return (unsigned.takeWhile isIntChar).length < (unsigned.takeWhile isFloatChar).length

/-- Any number. A whole number that fits into no type is read as a float. -/
def anyNumber : Reader Unit := do
  if ← looksLikeFloat then anyFloat else anyInteger <|> anyFloat

def char : Reader Unit := do
  expect ['\'']
  match ← get with
  | '\\' :: 'x' :: a :: b :: rest =>
    match Text.digitsValue? 16 [a, b] with
    | some byte => if byte < 0x80 then set rest else failure
    | none => failure
  | '\\' :: rest =>
    match escape? rest with
    | some (_, rest) => set rest
    | none => failure
  | _ :: rest => set rest
  | [] => failure
  expect ['\'']

def afterEscape? (text : List Char) : Option (List Char) := (escape? text).map Prod.snd

/-- What follows an escape of a text of bytes: two digits stand for any byte. -/
def afterByteEscape? : List Char → Option (List Char)
  | 'x' :: a :: b :: rest => if (Text.digitsValue? 16 [a, b]).isSome then some rest else none
  | text => afterEscape? text

/-- The bytes of a quoted text, up to its closing quote; there are not more than in `bound`. -/
def bytes : (bound : List Char) → Reader Unit
  | [] => failure
  | _ :: bound => do
    if ← take? ['"'] then return
    if ← take? ['\\'] then
      match afterByteEscape? (← get) with
      | some rest => set rest
      | none => failure
    else
      match ← get with
      | _ :: rest => set rest
      | [] => failure
    bytes bound

def byteText : Reader Unit := do
  if ← take? ['b', '"'] then bytes (← get)
  else
    expect ['b', 'r']
    discard rawText

def startsWithField : Reader Bool := ahead do
  blanks
  if (← name?).isNone then return false
  blanks
  return (← peek?) == some ':'

/-- What stands between the parentheses of a variant. -/
inductive Content where
  | fields
  | parts
  /-- One value, which a comma may follow. -/
  | single
  deriving DecidableEq, Repr

/-- What a comma tells, behind it: further parts follow, unless the parentheses are closed. -/
def contentAfterComma : Reader Content := do
  blanks
  return if (← peek?) = some ')' then .single else .parts

/--
Whether a quoted text never closes, behind its opening quote. A wrong escape in front of a quote is
an error of another kind. There are not more characters than in `bound`.
-/
def unclosed (afterEscape? : List Char → Option (List Char)) :
    (bound text : List Char) → Bool
  | _ :: bound, c :: rest =>
    if c = '"' then false
    else if c = '\\' then
      match afterEscape? rest with
      | some after => unclosed afterEscape? bound after
      | none => !rest.contains '"'
    else unclosed afterEscape? bound rest
  | _, _ => true

def rawUnclosed (text : List Char) : Bool :=
  match text.dropWhile (· == '#') with
  | '"' :: rest => (rawRest (text.takeWhile (· == '#')).length rest).isNone
  | _ => false

def textUnclosed : List Char → Bool
  | '"' :: rest => unclosed afterEscape? rest rest
  | 'r' :: rest => rawUnclosed rest
  | _ => false

def byteTextUnclosed : List Char → Bool
  | 'b' :: '"' :: rest => unclosed afterByteEscape? rest rest
  | 'b' :: 'r' :: rest => rawUnclosed rest
  | _ => false

/--
Takes quoted things that come next, so that what they quote is not taken for brackets. What is not
well formed is left in place, but a text must not be left open.
-/
def quotedThings : Reader Unit := do
  blanks
  char <|> pure ()
  if textUnclosed (← get) then failure
  discard text <|> pure ()
  if byteTextUnclosed (← get) then failure
  byteText <|> pure ()

/--
Looks for a comma at the level where it starts, up to the bracket that closes it. Brackets are
counted, whatever their kind; `bound` is longer than the text.
-/
def contentByBrackets : (bound : List Char) → (depth : Nat) → Reader Content
  | _, 0 => return .single
  | [], _ => failure
  | _ :: bound, depth + 1 => do
    quotedThings
    match ← get with
    | [] => failure
    | c :: rest =>
      set rest
      if c == '(' || c == '[' || c == '\x7b' then contentByBrackets bound (depth + 2)
      else if c == ')' || c == ']' || c == '\x7d' then contentByBrackets bound depth
      else if c == ',' && depth = 0 then contentAfterComma
      else contentByBrackets bound (depth + 1)

def content : Reader Content := ahead do
  blanks
  if (← name?).isSome then
    blanks
    match ← peek? with
    | some ':' => return .fields
    | some ',' =>
      expect [',']
      return ← contentAfterComma
    | some ')' => return .single
    | _ => pure ()
  contentByBrackets (' ' :: (← get)) 1

/-- The fields or the parts of a record whose parenthesis has been opened. -/
def skipRecord (part : Reader Unit) : Reader Unit := do
  let named ← startsWithField
  foldParts ')' (fun () => if named then discard (entry name part) else part) ()

/--
A value whose parts are skipped by other readers: `enter` opens a container, `inner` skips what is
marked as being there, and `part` skips a part of a container. An unwrapped value stands right
between the parentheses of a variant: it has the parts of a record without parentheses of its own,
or none.
-/
def skipOne (x : Extensions) (unwrapped : Bool) (enter : Reader Unit) (inner : Bool → Reader Unit)
    (part : Reader Unit) : Reader Unit := do
  if unwrapped then
    if (← peek?) = some ')' then return
    match ← content with
    | .fields =>
      enter
      return ← foldOpen ')' (fun () => discard (entry name part)) ()
    | .parts =>
      enter
      return ← foldOpen ')' (fun () => part) ()
    | .single => pure ()
  if ← anyWord? [['t', 'r', 'u', 'e'], ['f', 'a', 'l', 's', 'e'], ['N', 'o', 'n', 'e']] then return
  if ← word? ['S', 'o', 'm', 'e'] then
    blanks
    if ← take? ['('] then
      blanks
      inner x.unwrapVariantNewtypes
      discard comma?
      expect [')']
    else if x.implicitSome then inner false
    else failure
    return
  if ← take? ['(', ')'] then return
  if ← anyWord? [['i', 'n', 'f'], ['i', 'n', 'f', 'f', '3', '2'], ['i', 'n', 'f', 'f', '6', '4'],
      ['N', 'a', 'N'], ['N', 'a', 'N', 'f', '3', '2'], ['N', 'a', 'N', 'f', '6', '4']] then return
  if (← name?).isSome then
    blanks
    if ← take? ['('] then
      enter
      skipRecord part
    return
  match ← peek? with
  | some '(' =>
    expect ['(']
    enter
    skipRecord part
  | some '[' =>
    expect ['[']
    enter
    foldParts ']' (fun () => part) ()
  | some '\x7b' =>
    expect ['\x7b']
    enter
    foldParts '\x7d' (fun () => discard (entry part part)) ()
  | some '"' | some 'r' => discard text
  | some '\'' => char
  | some 'b' => if ['b', '\''].isPrefixOf (← get) then anyNumber else byteText
  | some c => if c.isDigit || c == '+' || c == '-' || c == '.' then anyNumber else failure
  | none => failure

/-- Skips a value that is nested to at most some depth, at the front of a text. -/
def skipNested (x : Extensions) : (depth : Nat) → (unwrapped : Bool) → Reader Unit
  | 0, unwrapped => fun text => (skipOne x unwrapped failure (fun _ => failure) failure).run text
  | 1, unwrapped => fun text =>
    (skipOne x unwrapped (pure ()) (fun unwrapped text => skipNested x 0 unwrapped text)
      failure).run text
  | depth + 2, unwrapped => fun text =>
    (skipOne x unwrapped (pure ()) (fun unwrapped text => skipNested x (depth + 1) unwrapped text)
      (fun text => skipNested x depth false text)).run text

def skip (x : Extensions) (depth : Nat) : Reader Unit := skipNested x depth false

end Nodeflow.Ron.Reader
