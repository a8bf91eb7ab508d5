import Circulation.Text.Digits

/-!
# Identifiers

Service points and calculations are identified by 128 bits, written as 32 hexadecimal digits in
groups of 8, 4, 4, 4 and 12. Reading also takes the digits without hyphens, and the hyphenated
form in braces or after `urn:uuid:`; digits may be of either case.
-/

namespace Circulation

/-- A 128-bit identifier. -/
structure Identifier where
  /-- The hexadecimal digits, most significant first. -/
  digits : List (Fin 16)
  length_eq : digits.length = 32
  deriving DecidableEq, Repr

/-- The identifier of a service point. -/
abbrev ServicePoint := Identifier

namespace Identifier

def hexValue? (c : Char) : Option (Fin 16) :=
  let n := c.toNat
  if h : 48 ≤ n ∧ n ≤ 57 then some ⟨n - 48, by omega⟩
  else if h : 97 ≤ n ∧ n ≤ 102 then some ⟨n - 87, by omega⟩
  else if h : 65 ≤ n ∧ n ≤ 70 then some ⟨n - 55, by omega⟩
  else none

def hexChar (d : Fin 16) : Char :=
  if d.val < 10 then Char.ofNat (48 + d.val) else Char.ofNat (87 + d.val)

/-- The identifier with the given hexadecimal digits. -/
def ofHex? (cs : List Char) : Option Identifier := do
  let digits ← cs.mapM hexValue?
  if h : digits.length = 32 then some ⟨digits, h⟩ else none

/-- Removes the hyphens of the grouped form, which must stand in their places. -/
def ungroup? (cs : List Char) : Option (List Char) :=
  match cs.drop 8, cs.drop 13, cs.drop 18, cs.drop 23 with
  | '-' :: b, '-' :: c, '-' :: d, '-' :: e =>
    some (cs.take 8 ++ b.take 4 ++ c.take 4 ++ d.take 4 ++ e)
  | _, _, _, _ => none

/-- The grouped form without braces or urn around it, or nothing if it has neither. -/
def unwrap? (cs : List Char) : Option (List Char) :=
  let urn := "urn:uuid:".toList
  if cs.length = 36 then some cs
  else if cs.length = 38 ∧ cs.head? = some '\x7b' ∧ cs.getLast? = some '\x7d' then
    some (cs.tail.dropLast)
  else if cs.length = 45 ∧ cs.take 9 = urn then some (cs.drop 9)
  else none

def ofChars? (cs : List Char) : Option Identifier :=
  if cs.length = 32 then ofHex? cs else (unwrap? cs).bind ungroup? |>.bind ofHex?

def ofText? (s : String) : Option Identifier := ofChars? s.toList

def toText (id : Identifier) : String :=
  let hex := id.digits.map hexChar
  String.ofList (hex.take 8 ++ '-' :: (hex.drop 8).take 4 ++ '-' :: (hex.drop 12).take 4 ++
    '-' :: (hex.drop 16).take 4 ++ '-' :: hex.drop 20)

theorem hexValue?_hexChar (d : Fin 16) : hexValue? (hexChar d) = some d := by
  revert d; decide

end Identifier

end Circulation
