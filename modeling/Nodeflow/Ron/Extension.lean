import Nodeflow.Ron.Reader

/-!
# Extensions of the object notation

A text may begin with attributes that allow shorter forms, or demand a longer one.
-/

namespace Nodeflow.Ron

/-- The extensions that a text enables. -/
structure Extensions where
  /-- A wrapper around a single value is left out. -/
  unwrapNewtypes : Bool := false
  /-- A value that may be missing is given without its mark. -/
  implicitSome : Bool := false
  /-- The parts of a single value inside a variant are given without its own parentheses. -/
  unwrapVariantNewtypes : Bool := false
  /-- Records have to be named. -/
  explicitStructNames : Bool := false
  deriving DecidableEq, Repr, Inhabited

def Extensions.enable? (x : Extensions) (name : String) : Option Extensions :=
  if name = "unwrap_newtypes" then some { x with unwrapNewtypes := true }
  else if name = "implicit_some" then some { x with implicitSome := true }
  else if name = "unwrap_variant_newtypes" then some { x with unwrapVariantNewtypes := true }
  else if name = "explicit_struct_names" then some { x with explicitStructNames := true }
  else none

namespace Reader

/-- The names of extensions, up to a bound for their number. -/
def extensionNames : (bound : Nat) → Extensions → Reader Extensions
  | 0, _ => failure
  | bound + 1, x => do
    match x.enable? (String.ofList (← name)) with
    | none => failure
    | some x =>
      if ← comma? then
        if (← peek?).any startsName then extensionNames bound x else return x
      else return x

/-- The parts of a text, with blanks allowed behind each. -/
def expectAll (words : List (List Char)) : Reader Unit :=
  words.forM fun word => do
    expect word
    blanks

def attributes : (bound : Nat) → Extensions → Reader Extensions
  | 0, _ => failure
  | bound + 1, x => do
    if (← peek?) = some '#' then
      expectAll [['#'], ['!'], ['['], ['e', 'n', 'a', 'b', 'l', 'e'], ['(']]
      let x ← extensionNames (← get).length x
      expectAll [[')'], [']']]
      attributes bound x
    else return x

def header : Reader Extensions := do
  blanks
  attributes ((← get).length + 1) {}

end Reader

end Nodeflow.Ron
