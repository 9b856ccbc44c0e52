import Nodeflow.Ron.Reader

/-!
# Sequences in the object notation

Parts stand between an opening and a closing character, with commas between them; a comma may stand
behind the last part too.
-/

namespace Nodeflow.Ron.Reader

variable {σ α : Type}

/--
Reads parts up to a closing character, which is left in place. Each part takes a character, so there
are not more of them than characters in `bound`, which is longer than the text.
-/
def foldBounded (close : Char) (part : σ → Reader σ) : (bound : List Char) → σ → Reader σ
  | [], _ => failure
  | _ :: bound, s => do
    blanks
    if (← peek?) = some close then return s
    let s ← part s
    if ← comma? then foldBounded close part bound s
    else if (← peek?) = some close then return s
    else failure

def foldOpen (close : Char) (part : σ → Reader σ) (start : σ) : Reader σ := do
  foldBounded close part (close :: (← get)) start

def foldParts (close : Char) (part : σ → Reader σ) (start : σ) : Reader σ := do
  let s ← foldOpen close part start
  expect [close]
  return s

def parts (close : Char) (part : Reader α) : Reader (List α) := do
  return (← foldParts close (fun found => (· :: found) <$> part) []).reverse

def list (part : Reader α) : Reader (List α) := do
  expect ['[']
  parts ']' part

/-- One of a fixed number of parts; there has to be a comma behind it if it is not the last one. -/
def partOf (part : Reader α) (isLast : Bool) : Reader α := do
  blanks
  let x ← part
  if (← comma?) || isLast then return x else failure

def entry {κ : Type} (key : Reader κ) (value : Reader α) : Reader (κ × α) := do
  let k ← key
  blanks
  expect [':']
  blanks
  return (k, ← value)

end Nodeflow.Ron.Reader
