import Circulation.Json.Value

/-!
# Reading JSON

A reader takes the characters still to be read and gives a value with the characters after it. A
number without fraction and exponent is an integer if it fits into 64 bits, and otherwise a
decimal, as is a negative zero. Of members with one key the last one counts. Lists and objects can
stand inside each other up to a depth, so that no text makes the reader call itself without end.
-/

namespace Circulation.Json

def isSpace (c : Char) : Bool :=
  c = ' ' || c = '\t' || c = '\n' || c = '\r'

def skipSpace (cs : List Char) : List Char := cs.dropWhile isSpace

/-- Skips a given text. -/
def literal? (text : String) (cs : List Char) : Option (List Char) :=
  if text.toList.isPrefixOf cs then some (cs.drop text.length) else none

/-! ## Strings -/

def hexValue? (c : Char) : Option Nat :=
  let n := c.toNat
  if 48 ≤ n ∧ n ≤ 57 then some (n - 48)
  else if 97 ≤ n ∧ n ≤ 102 then some (n - 87)
  else if 65 ≤ n ∧ n ≤ 70 then some (n - 55)
  else none

/-- A unit of 16 bits in four hexadecimal digits. -/
def unit? : List Char → Option (Nat × List Char)
  | a :: b :: c :: d :: rest => do
    let a ← hexValue? a
    let b ← hexValue? b
    let c ← hexValue? c
    let d ← hexValue? d
    some (4096 * a + 256 * b + 16 * c + d, rest)
  | _ => none

/-- The character of one unit, or of two units that form a pair. -/
def escapedUnit? (cs : List Char) : Option (Char × List Char) := do
  let (high, rest) ← unit? cs
  if 0xDC00 ≤ high ∧ high ≤ 0xDFFF then none
  else if 0xD800 ≤ high ∧ high ≤ 0xDBFF then
    match rest with
    | '\\' :: 'u' :: rest =>
      let (low, rest) ← unit? rest
      if 0xDC00 ≤ low ∧ low ≤ 0xDFFF then
        some (Char.ofNat (0x10000 + 1024 * (high - 0xD800) + (low - 0xDC00)), rest)
      else none
    | _ => none
  else some (Char.ofNat high, rest)

/-- The character of an escape after its backslash. -/
def escaped? : List Char → Option (Char × List Char)
  | [] => none
  | c :: rest =>
    match c with
    | '"' => some ('"', rest)
    | '\\' => some ('\\', rest)
    | '/' => some ('/', rest)
    | 'b' => some ('\x08', rest)
    | 'f' => some ('\x0c', rest)
    | 'n' => some ('\n', rest)
    | 'r' => some ('\r', rest)
    | 't' => some ('\t', rest)
    | 'u' => escapedUnit? rest
    | _ => none

/-- The characters of a string up to its closing quote. -/
def stringRest? : Nat → List Char → Option (List Char × List Char)
  | 0, _ => none
  | _ + 1, [] => none
  | fuel + 1, c :: rest =>
    if c = '"' then some ([], rest)
    else if c = '\\' then do
      let (d, rest) ← escaped? rest
      let (s, rest) ← stringRest? fuel rest
      some (d :: s, rest)
    else if c.toNat < 32 then none
    else do
      let (s, rest) ← stringRest? fuel rest
      some (c :: s, rest)

/-- A string after its opening quote. -/
def string? (fuel : Nat) (cs : List Char) : Option (String × List Char) := do
  let (s, rest) ← stringRest? fuel cs
  some (String.ofList s, rest)

/-! ## Numbers -/

/-- The parts of a written number. -/
structure Numeral where
  negative : Bool
  whole : List Char
  fraction : Option (List Char)
  exponent : Option Int

/-- One or more digits and what follows. -/
def digits? (cs : List Char) : Option (List Char × List Char) :=
  match cs.takeWhile Char.isDigit with
  | [] => none
  | ds => some (ds, cs.dropWhile Char.isDigit)

/-- The digits of the whole part: no zero stands before other digits. -/
def whole? (cs : List Char) : Option (List Char × List Char) :=
  match digits? cs with
  | some ('0' :: _ :: _, _) => none
  | found => found

def fraction? : List Char → Option (Option (List Char) × List Char)
  | '.' :: rest => (digits? rest).map fun (ds, rest) => (some ds, rest)
  | cs => some (none, cs)

/-- An exponent after its sign. -/
def signed? (negative : Bool) (cs : List Char) : Option (Option Int × List Char) := do
  let (ds, rest) ← digits? cs
  let n : Int := Text.digitsValue ds
  some (some (if negative then -n else n), rest)

def exponent? : List Char → Option (Option Int × List Char)
  | c :: rest =>
    if c = 'e' ∨ c = 'E' then
      match rest with
      | '-' :: rest => signed? true rest
      | '+' :: rest => signed? false rest
      | rest => signed? false rest
    else some (none, c :: rest)
  | [] => some (none, [])

def numeral? (cs : List Char) : Option (Numeral × List Char) := do
  let negative := cs.head? = some '-'
  let (whole, cs) ← whole? (if negative then cs.tail else cs)
  let (fraction, cs) ← fraction? cs
  let (exponent, cs) ← exponent? cs
  some (⟨negative, whole, fraction, exponent⟩, cs)

/-- The digits that fit into 64 bits as a number, and how many do not. -/
def significand : Nat → List Char → Nat × Nat
  | n, [] => (n, 0)
  | n, d :: ds =>
    let next := 10 * n + Text.digitValue d
    if next < UInt64.size then significand next ds else (n, (d :: ds).length)

namespace Numeral

/-- The integer that the numeral stands for, if it is one of 64 bits. -/
def int? (n : Numeral) : Option Int :=
  let size := Text.digitsValue n.whole
  if n.fraction.isSome ∨ n.exponent.isSome then none
  else if n.negative then if 0 < size ∧ size ≤ Nat.pow 2 63 then some (-(size : Int)) else none
  else if size < UInt64.size then some size else none

/-- The decimal that the numeral stands for. Digits that do not fit into 64 bits are dropped. -/
def decimal? (n : Numeral) : Option Decimal :=
  let fraction := n.fraction.getD []
  let exponent := n.exponent.getD 0
  match significand 0 n.whole with
  | (whole, 0) =>
    let (all, dropped) := significand whole fraction
    Decimal.read? n.negative all (exponent - (fraction.length - dropped : Nat))
  | (whole, dropped) => Decimal.read? n.negative whole (exponent + dropped)

def value? (n : Numeral) : Option Json :=
  match n.int? with
  | some i => some (int i)
  | none => n.decimal?.map decimal

end Numeral

/-! ## Values -/

/-- How many lists and objects can stand inside each other. -/
def maxDepth : Nat := 127

mutual

/-- A value in which at most `levels` lists and objects stand inside each other. -/
def value? : Nat → (levels : Nat) → List Char → Option (Json × List Char)
  | 0, _, _ => none
  | fuel + 1, levels, cs =>
    match skipSpace cs with
    | 'n' :: rest => (literal? "ull" rest).map fun rest => (null, rest)
    | 't' :: rest => (literal? "rue" rest).map fun rest => (bool true, rest)
    | 'f' :: rest => (literal? "alse" rest).map fun rest => (bool false, rest)
    | '"' :: rest => (string? fuel rest).map fun (s, rest) => (str s, rest)
    | '[' :: rest =>
      if levels = 0 then none
      else
        match skipSpace rest with
        | ']' :: rest => some (arr [], rest)
        | rest => (items? fuel (levels - 1) rest).map fun (items, rest) => (arr items, rest)
    | '\x7b' :: rest =>
      if levels = 0 then none
      else
        match skipSpace rest with
        | '\x7d' :: rest => some (obj [], rest)
        | rest =>
          (members? fuel (levels - 1) [] rest).map fun (members, rest) => (obj members, rest)
    | cs => do
      let (n, rest) ← numeral? cs
      let j ← n.value?
      some (j, rest)

/-- The items of a list up to its closing bracket. -/
def items? : Nat → (levels : Nat) → List Char → Option (List Json × List Char)
  | 0, _, _ => none
  | fuel + 1, levels, cs => do
    let (j, rest) ← value? fuel levels cs
    match skipSpace rest with
    | ',' :: rest =>
      let (items, rest) ← items? fuel levels rest
      some (j :: items, rest)
    | ']' :: rest => some ([j], rest)
    | _ => none

/-- The members of an object up to its closing brace, added to those already read. -/
def members? : Nat → (levels : Nat) → List (String × Json) → List Char →
    Option (List (String × Json) × List Char)
  | 0, _, _, _ => none
  | fuel + 1, levels, done, cs => do
    match skipSpace cs with
    | '"' :: rest =>
      let (key, rest) ← string? fuel rest
      match skipSpace rest with
      | ':' :: rest =>
        let (j, rest) ← value? fuel levels rest
        let done := insertMember key j done
        match skipSpace rest with
        | ',' :: rest => members? fuel levels done rest
        | '\x7d' :: rest => some (done, rest)
        | _ => none
      | _ => none
    | _ => none

end

/-- The value that a text holds, and nothing else but blanks. -/
def ofText? (s : String) : Option Json := do
  let cs := s.toList
  let (j, rest) ← value? (2 * cs.length + 2) maxDepth cs
  if (skipSpace rest).isEmpty then some j else none

end Circulation.Json
