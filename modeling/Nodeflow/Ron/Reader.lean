import Nodeflow.Text.Name

/-!
# Reading the object notation

Trees and settings are kept in an object notation: records between parentheses, maps between braces,
lists between brackets, and plain values. A reader takes a part off the front of a text, or refuses
it. Blanks and comments may stand between any two parts: line comments behind two slashes, and block
comments, which may contain each other.
-/

namespace Nodeflow.Ron

/-- Takes a part off the front of a text, or refuses it. -/
abbrev Reader := StateT (List Char) Option

/-- Whether a character is a blank of the notation. -/
def isBlank (c : Char) : Bool :=
  c == ' ' || c == '\t' || c == '\n' || c == '\r' || c == '\x0B' || c == '\x0C' ||
    c == '\u0085' || c == '\u200E' || c == '\u200F' || c == '\u2028' || c == '\u2029'

/-- Where between two parts a text is being skipped. -/
inductive Between where
  | blanks
  | lineComment
  /-- Inside a number of further block comments. -/
  | blockComment (outer : Nat)
  deriving DecidableEq, Repr

/-- What follows blanks and comments; a comment that is not closed, or only begun, is refused. -/
def afterBlanks : Between → List Char → Option (List Char)
  | .blanks, '/' :: '/' :: rest => afterBlanks .lineComment rest
  | .blanks, '/' :: '*' :: rest => afterBlanks (.blockComment 0) rest
  | .blanks, c :: rest =>
    if c = '/' then none else if isBlank c then afterBlanks .blanks rest else some (c :: rest)
  | .lineComment, c :: rest => afterBlanks (if c = '\n' then .blanks else .lineComment) rest
  | .blockComment outer, '/' :: '*' :: rest => afterBlanks (.blockComment (outer + 1)) rest
  | .blockComment 0, '*' :: '/' :: rest => afterBlanks .blanks rest
  | .blockComment (outer + 1), '*' :: '/' :: rest => afterBlanks (.blockComment outer) rest
  | .blockComment outer, _ :: rest => afterBlanks (.blockComment outer) rest
  | .blockComment _, [] => none
  | _, [] => some []

namespace Reader

def blanks : Reader Unit := fun text => (afterBlanks .blanks text).map fun rest => ((), rest)

def ofFunction {α : Type} (f : List Char → Option (α × List Char)) : Reader α := f

def peek? : Reader (Option Char) := return (← get).head?

/-- What a reader finds, without taking it. -/
def ahead {α : Type} (look : Reader α) : Reader α := do
  let text ← get
  let found ← look
  set text
  return found

/-- Takes a text if it comes next; tells whether it does. -/
def take? (word : List Char) : Reader Bool := do
  let text ← get
  if word.isPrefixOf text then
    set (text.drop word.length)
    return true
  else return false

def expect (word : List Char) : Reader Unit := do if !(← take? word) then failure

def takeWhile (test : Char → Bool) : Reader (List Char) :=
  modifyGet fun text => (text.takeWhile test, text.dropWhile test)

/-- Takes a word if it comes next and is not part of a longer one. -/
def word? (word : List Char) : Reader Bool := do
  let text ← get
  if word.isPrefixOf text && !((text.drop word.length).head?).any Text.continuesName then
    set (text.drop word.length)
    return true
  else return false

def anyWord? (words : List (List Char)) : Reader Bool := do
  for word in words do
    if ← word? word then return true
  return false

/-- Takes a comma and the blanks around it; tells whether there is one. -/
def comma? : Reader Bool := do
  blanks
  if ← take? [','] then
    blanks
    return true
  else return false

/-! ## Names -/

def startsName (c : Char) : Bool := Text.startsName c || c == '_'

def isRawNameChar (c : Char) : Bool := Text.continuesName c || c == '.' || c == '+' || c == '-'

/-- The openings of raw texts and byte texts, which look like names. -/
def literalOpenings : List (List Char) :=
  [['b', '"'], ['b', '\''], ['b', 'r', '#'], ['b', 'r', '"'], ['r', '"'], ['r', '#', '"'],
    ['r', '#', '#']]

/--
Takes a name, if one comes next: a letter or underscore and what may follow it, or any characters of
a raw name behind its mark.
-/
def name? : Reader (Option (List Char)) := do
  let text ← get
  if literalOpenings.any fun opening => opening.isPrefixOf text then return none
  match text with
  | 'r' :: '#' :: rest =>
    let name := rest.takeWhile isRawNameChar
    if name.isEmpty then return none
    set (rest.drop name.length)
    return some name
  | c :: _ =>
    if startsName c then return some (← takeWhile Text.continuesName) else return none
  | [] => return none

/-- Takes a name that has to come next; it must not run on as a raw name would. -/
def name : Reader (List Char) := do
  let text ← get
  match ← name? with
  | none => failure
  | some name =>
    let isRaw := ['r', '#'].isPrefixOf text
    if !isRaw && ((← peek?).any isRawNameChar) then failure
    return name

end Reader

end Nodeflow.Ron
