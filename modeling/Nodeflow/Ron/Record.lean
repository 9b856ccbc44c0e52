import Nodeflow.Ron.Skip

/-!
# Records, maps and variants of the object notation

A record may carry its name. Its fields come in any order, each at most once, and fields that the
record does not have are skipped. A single value may stand in a wrapper with its own parentheses. A
value that may be missing is marked by the word for it.
-/

namespace Nodeflow.Ron.Reader

variable {σ α : Type}

/-- The levels that values may be nested to. A record takes one, and each field another. -/
def levels : Nat := 128

/-- The name of a record, which may be left out unless it is asked for. -/
def recordName (x : Extensions) (expected : String) : Reader Unit := do
  if (← peek?).any Text.continuesName then
    if String.ofList (← name) ≠ expected then failure
  else if x.explicitStructNames then failure

/-- Reads a field that must not have been read before. -/
def once (old : Option α) (store : α → σ) (value : Reader α) : Reader σ :=
  match old with
  | some _ => failure
  | none => store <$> value

/--
A record: `field` tells how a field is read, given what has been read so far. Values of fields that
it does not know are skipped if they are nested to at most some depth.
-/
def record (x : Extensions) (depth : Nat) (expected : String)
    (field : σ → String → Option (Reader σ)) (start : σ) : Reader σ := do
  recordName x expected
  blanks
  expect ['(']
  foldParts ')' (fun s => do
    let key ← name
    blanks
    expect [':']
    blanks
    match field s (String.ofList key) with
    | some read => read
    | none =>
      skip x depth
      return s) start

def wrapped (x : Extensions) (expected : String) (value : Reader α) : Reader α := do
  if x.unwrapNewtypes then value
  else
    recordName x expected
    blanks
    expect ['(']
    blanks
    let v ← value
    discard comma?
    expect [')']
    return v

def map {κ : Type} (key : Reader κ) (value : Reader α) : Reader (List (κ × α)) := do
  expect ['\x7b']
  parts '\x7d' (entry key value)

def optional (x : Extensions) (value : Reader α) : Reader (Option α) := do
  if ← word? ['N', 'o', 'n', 'e'] then return none
  if ← word? ['S', 'o', 'm', 'e'] then
    blanks
    if ← take? ['('] then
      blanks
      let v ← value
      discard comma?
      expect [')']
      return some v
  if x.implicitSome then return some (← value) else failure

def variant (meanings : List (String × α)) : Reader α := do
  let word := String.ofList (← name)
  match meanings.find? fun meaning => meaning.1 = word with
  | some (_, v) => return v
  | none => failure

def inVariant (value : Reader α) : Reader α := do
  blanks
  expect ['(']
  blanks
  let v ← value
  discard comma?
  expect [')']
  return v

/-- The parts of a tuple inside a variant, in parentheses of their own unless they are unwrapped. -/
def tuple (x : Extensions) (parts : Reader α) : Reader α := do
  if !x.unwrapVariantNewtypes then expect ['(']
  let v ← parts
  if !x.unwrapVariantNewtypes then expect [')']
  return v

/-- A whole text: its attributes, a value, and nothing but blanks behind it. -/
def whole (value : Extensions → Reader α) (text : String) : Option α :=
  let document : Reader α := do
    let x ← header
    let v ← value x
    blanks
    if (← get).isEmpty then return v else failure
  document.run' text.toList

end Nodeflow.Ron.Reader
