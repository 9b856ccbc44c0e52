import Nodeflow.Text.Quoted

/-!
# Writing the object notation

Records, maps and lists are written with one part on a line, four blanks deeper than the line they
begin on, and with a comma behind every part. Where there are no parts they take no line of their
own.
-/

namespace Nodeflow.Ron

def indent (depth : Nat) : String := String.ofList (List.replicate (4 * depth) ' ')

/-- Parts between an opening and a closing text, each on a line of its own. -/
def block (opening closing : String) (depth : Nat) (parts : List String) : String :=
  if parts.isEmpty then opening ++ closing
  else opening ++ "\n" ++
    String.join (parts.map fun part => indent (depth + 1) ++ part ++ ",\n") ++
    indent depth ++ closing

def recordBlock (depth : Nat) (fields : List (String × String)) : String :=
  block "(" ")" depth (fields.map fun (name, value) => name ++ ": " ++ value)

def mapBlock (depth : Nat) (entries : List (String × String)) : String :=
  block "\x7b" "\x7d" depth (entries.map fun (key, value) => key ++ ": " ++ value)

def listBlock (depth : Nat) (parts : List String) : String := block "[" "]" depth parts

def tupleText (parts : List String) : String := "(" ++ ", ".intercalate parts ++ ")"

def wrappedText (value : String) : String := "(" ++ value ++ ")"

def variantText (name value : String) : String := name ++ "(" ++ value ++ ")"

def optionalText : Option String → String
  | none => "None"
  | some value => variantText "Some" value

def boolText (b : Bool) : String := if b then "true" else "false"

end Nodeflow.Ron
