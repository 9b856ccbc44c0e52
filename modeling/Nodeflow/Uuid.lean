import Nodeflow.Text.Hex

/-!
# Universally unique identifiers

An identifier is 128 bits, written as 32 hexadecimal digits in groups of 8, 4, 4, 4 and 12. Reading
also takes the digits without hyphens, and the hyphenated form between braces or behind `urn:uuid:`.
Letters may be of either case.
-/

namespace Nodeflow

/-- A 128-bit identifier, as its upper and lower half. -/
structure Uuid where
  high : UInt64
  low : UInt64
  deriving DecidableEq, Repr, Inhabited

namespace Uuid

/-- The hexadecimal digits of a number, padded to a width. -/
def hexDigits (width : Nat) (n : Nat) : List Char :=
  (List.range width).reverse.map fun i => Nat.digitChar ((n >>> (4 * i)) % 16)

def digits (id : Uuid) : List Char := hexDigits 16 id.high.toNat ++ hexDigits 16 id.low.toNat

def toText (id : Uuid) : String :=
  let d := id.digits
  String.ofList (d.take 8 ++ '-' :: ((d.drop 8).take 4) ++ '-' :: ((d.drop 12).take 4) ++
    '-' :: ((d.drop 16).take 4) ++ '-' :: d.drop 20)

instance : ToString Uuid := ⟨toText⟩

def ofDigits? (text : List Char) : Option Uuid :=
  if text.length = 32 then
    match Text.digitsValue? 16 (text.take 16), Text.digitsValue? 16 (text.drop 16) with
    | some high, some low => some ⟨UInt64.ofNat high, UInt64.ofNat low⟩
    | _, _ => none
  else none

def ofHyphenated? (text : List Char) : Option Uuid :=
  if text.length = 36 && [8, 13, 18, 23].all fun i => text[i]? == some '-' then
    ofDigits? (text.take 8 ++ (text.drop 9).take 4 ++ (text.drop 14).take 4 ++
      (text.drop 19).take 4 ++ text.drop 24)
  else none

def urnPrefix : List Char := ['u', 'r', 'n', ':', 'u', 'u', 'i', 'd', ':']

/-- Reads an identifier in any of its forms. -/
def ofText? (text : String) : Option Uuid :=
  let chars := text.toList
  if chars.length = 32 then ofDigits? chars
  else if chars.length = 36 then ofHyphenated? chars
  else if chars.length = 38 && chars.head? == some '\x7b' && chars.getLast? == some '\x7d' then
    ofHyphenated? ((chars.drop 1).take 36)
  else if chars.length = 45 && (chars.take 9).map Char.toLower == urnPrefix then
    ofHyphenated? (chars.drop 9)
  else none

end Uuid

end Nodeflow
