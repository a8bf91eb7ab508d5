import Circulation.Text.Digits

/-!
# Shortest decimals

A number that is not an integer is kept to the precision of a binary fraction with 53 significant
bits. It is represented by the decimal with the fewest digits that is nearer to that binary
fraction than to any other, and is written with those digits.
-/

namespace Circulation.Json

/-- The number `± digits * 10 ^ exponent`. -/
structure Decimal where
  negative : Bool
  digits : Nat
  exponent : Int
  deriving DecidableEq, Repr

namespace Decimal

/-! ## The fewest digits -/

/-- A positive binary fraction `mantissa * 2 ^ exponent`. -/
structure Binary where
  mantissa : Nat
  exponent : Int
  /-- The fraction next below is half as far away as the one next above. -/
  isPowerOfTwo : Bool

/-- Compares `x * 2 ^ b` with `n * 10 ^ e`. -/
def compareScaled (x : Nat) (b : Int) (n : Nat) (e : Int) : Ordering :=
  compare (x * Nat.pow 2 b.toNat * Nat.pow 10 (-e).toNat)
    (n * Nat.pow 10 e.toNat * Nat.pow 2 (-b).toNat)

/-- The greatest `n` with `n * 10 ^ e` at most the binary fraction. -/
def floorAt (b : Binary) (e : Int) : Nat :=
  (b.mantissa * Nat.pow 2 b.exponent.toNat * Nat.pow 10 (-e).toNat) /
    (Nat.pow 10 e.toNat * Nat.pow 2 (-b.exponent).toNat)

/-- The decimal reads back as the binary fraction: it lies within half a step of it, and on the
edge only if the mantissa is even. -/
def readsBack (b : Binary) (n : Nat) (e : Int) : Bool :=
  let low := compareScaled (4 * b.mantissa - (if b.isPowerOfTwo then 1 else 2)) (b.exponent - 2) n e
  let high := compareScaled (4 * b.mantissa + 2) (b.exponent - 2) n e
  if b.mantissa % 2 = 0 then low != .gt && high != .lt else low == .lt && high == .gt

/-- Whether `n + 1` is at least as near to the binary fraction as `n`, with an even `n` first. -/
def nearerAbove (b : Binary) (n : Nat) (e : Int) : Bool :=
  match compareScaled (2 * b.mantissa) b.exponent (2 * n + 1) e with
  | .gt => true
  | .lt => false
  | .eq => n % 2 = 1

/-- The neighbour of the binary fraction on the grid of multiples of `10 ^ e` that reads back. -/
def onGrid? (b : Binary) (e : Int) : Option Nat :=
  let n := floorAt b e
  match readsBack b n e && n != 0, readsBack b (n + 1) e with
  | true, true => some (if nearerAbove b n e then n + 1 else n)
  | true, false => some n
  | false, true => some (n + 1)
  | false, false => none

/-- The first grid that has a decimal that reads back, from the coarsest of `count` grids on. -/
def search (b : Binary) (e : Int) : Nat → Option (Nat × Int)
  | 0 => none
  | count + 1 =>
    match onGrid? b e with
    | some n => some (n, e)
    | none => search b (e - 1) count

/-- Drops trailing zeros. -/
def normalize : Nat → Nat → Int → Nat × Int
  | 0, n, e => (n, e)
  | fuel + 1, n, e => if n ≠ 0 ∧ n % 10 = 0 then normalize fuel (n / 10) (e + 1) else (n, e)

/-- The fewest digits and their exponent. The first grid is above every binary fraction. -/
def shortest (b : Binary) : Nat × Int :=
  let size := (b.mantissa.log2 : Int) + b.exponent
  let (n, e) := (search b (size * 30103 / 100000 + 2) 24).getD (0, 0)
  normalize 20 n e

/-! ## Binary fractions -/

/-- The bits of a number as sign and binary fraction, unless it is zero or not a number. -/
def binaryOf (x : Float) : Bool × Option Binary :=
  let bits : Nat := x.toBits.toNat
  let exponent : Nat := bits / Nat.pow 2 52 % Nat.pow 2 11
  let fraction : Nat := bits % Nat.pow 2 52
  let negative := bits / Nat.pow 2 63 = 1
  if exponent = 0 then
    (negative, if fraction = 0 then none else some ⟨fraction, -1074, false⟩)
  else
    (negative,
      some ⟨Nat.pow 2 52 + fraction, (exponent : Int) - 1075, fraction = 0 && exponent != 1⟩)

def ofFloat (x : Float) : Decimal :=
  match binaryOf x with
  | (negative, none) => ⟨negative, 0, 0⟩
  | (negative, some b) => let (n, e) := shortest b; ⟨negative, n, e⟩

/-- The powers of ten that are divided or multiplied by at once. -/
def maxScale : Nat := 308

/-- Scales a number down by a power of ten, in steps of at most `maxScale`. -/
def scaleDown : Nat → Float → Nat → Float
  | 0, x, _ => x
  | fuel + 1, x, k =>
    if k ≤ maxScale then x / Float.ofScientific 1 false k
    else scaleDown fuel (x / Float.ofScientific 1 false maxScale) (k - maxScale)

/-- The number with the given significant digits and power of ten, unless it is too large. -/
def read? (negative : Bool) (significand : Nat) (exponent : Int) : Option Decimal :=
  let x := Float.ofNat significand
  if significand = 0 then some ⟨negative, 0, 0⟩
  else if 0 ≤ exponent then
    let y := x * Float.ofScientific 1 false exponent.toNat
    if maxScale < exponent ∨ y.isInf then none else some { ofFloat y with negative }
  else some { ofFloat (scaleDown 4 x exponent.natAbs) with negative }

/-! ## Writing -/

/-- Positional between 10⁻⁵ and 10¹⁶, always with a fraction; otherwise one digit before the point
and an exponent that always has its sign. -/
def chars (d : Decimal) : List Char :=
  let ds := Text.decimal d.digits
  let length := ds.length
  let point := (length : Int) + d.exponent
  let text :=
    if d.digits = 0 then ['0', '.', '0']
    else if 0 ≤ d.exponent ∧ point ≤ 16 then
      ds ++ List.replicate d.exponent.toNat '0' ++ ['.', '0']
    else if 0 < point ∧ point ≤ 16 then ds.take point.toNat ++ '.' :: ds.drop point.toNat
    else if -5 < point ∧ point ≤ 0 then
      '0' :: '.' :: List.replicate point.natAbs '0' ++ ds
    else
      let sign := if 0 < point then '+' else '-'
      let exponent := 'e' :: sign :: Text.decimal (point - 1).natAbs
      if length = 1 then ds ++ exponent else ds.take 1 ++ '.' :: ds.drop 1 ++ exponent
  if d.negative then '-' :: text else text

end Decimal

end Circulation.Json
