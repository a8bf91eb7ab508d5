/-!
# Digits and blanks

Decimal text as the calendar formats use it: fields of a fixed width, numbers of any length, and
the blanks that a reader skips between fields. Readers take the characters still to be read and
give the value with the characters that follow it.
-/

namespace Circulation.Text

/-- The characters a reader skips between fields. -/
def isBlank (c : Char) : Bool :=
  let n := c.toNat
  (9 ≤ n && n ≤ 13) || n == 0x20 || n == 0x85 || n == 0xA0 || n == 0x1680 ||
    (0x2000 ≤ n && n ≤ 0x200A) || n == 0x2028 || n == 0x2029 || n == 0x202F || n == 0x205F ||
    n == 0x3000

def skipBlanks (cs : List Char) : List Char :=
  cs.dropWhile isBlank

/-! ## Writing -/

def digitChar (d : Nat) : Char :=
  Char.ofNat (48 + d)

/-- The last `width` decimal digits of `n`, with leading zeros. -/
def fixed : Nat → Nat → List Char
  | 0, _ => []
  | width + 1, n => fixed width (n / 10) ++ [digitChar (n % 10)]

/-- The decimal digits of `n`, without leading zeros. -/
def decimal (n : Nat) : List Char :=
  if n < 10 then [digitChar n] else decimal (n / 10) ++ [digitChar (n % 10)]

/-- The decimal text of an integer. -/
def ofInt (n : Int) : List Char :=
  if n < 0 then '-' :: decimal n.natAbs else decimal n.natAbs

@[simp] theorem length_fixed (width n : Nat) : (fixed width n).length = width := by
  induction width generalizing n with
  | zero => rfl
  | succ w ih => simp [fixed, ih]

/-! ## Reading -/

def digitValue (c : Char) : Nat :=
  c.toNat - 48

def digitsValue (cs : List Char) : Nat :=
  cs.foldl (fun n c => 10 * n + digitValue c) 0

/-- The leading digits of the text, at most `limit` of them, and what follows. -/
def spanDigits : Nat → List Char → List Char × List Char
  | 0, cs => ([], cs)
  | _ + 1, [] => ([], [])
  | limit + 1, c :: cs =>
    if c.isDigit then
      let (ds, rest) := spanDigits limit cs
      (c :: ds, rest)
    else ([], c :: cs)

/-- A number of one to `limit` digits. -/
def number? (limit : Nat) (cs : List Char) : Option (Nat × List Char) :=
  match spanDigits limit cs with
  | ([], _) => none
  | (ds, rest) => some (digitsValue ds, rest)

/-- A number after any blanks. -/
def field? (limit : Nat) (cs : List Char) : Option (Nat × List Char) :=
  number? limit (skipBlanks cs)

/-- The character `c`, and nothing before it. -/
def char? (c : Char) : List Char → Option (List Char)
  | [] => none
  | d :: rest => if d = c then some rest else none

/-- The character `c` after any blanks. -/
def mark? (c : Char) (cs : List Char) : Option (List Char) :=
  char? c (skipBlanks cs)

end Circulation.Text
