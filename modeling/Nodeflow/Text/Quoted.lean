import Nodeflow.Text.Hidden

/-!
# Quoted text

Text is quoted between double quotes. A backslash, a double quote, a tab, a line end and the zero
character are written with a letter behind a backslash, and hidden characters by their number in
hexadecimal, so a quoted text never spans two lines. Tree files write an apostrophe behind a
backslash too.
-/

namespace Nodeflow.Text

/-- The number of a character in hexadecimal, between braces. -/
def byNumber (c : Char) : List Char :=
  '\\' :: 'u' :: '\x7b' :: (Nat.toDigits 16 c.toNat ++ ['\x7d'])

def escape (apostrophe : Bool) (c : Char) : List Char :=
  if c = '\x00' then ['\\', '0']
  else if c = '\t' then ['\\', 't']
  else if c = '\r' then ['\\', 'r']
  else if c = '\n' then ['\\', 'n']
  else if c = '\\' then ['\\', '\\']
  else if c = '"' then ['\\', '"']
  else if apostrophe && c = '\'' then ['\\', '\'']
  else if isHidden c then byNumber c
  else [c]

/-- A text between double quotes, with its characters escaped. -/
def quoteWith (apostrophe : Bool) (text : String) : String :=
  String.ofList ('"' :: (text.toList.flatMap (escape apostrophe) ++ ['"']))

/-- A text as it is quoted in listings and messages. -/
def quote (text : String) : String := quoteWith false text

/-- A text as it is quoted in tree files. -/
def quoteInFile (text : String) : String := quoteWith true text

end Nodeflow.Text
