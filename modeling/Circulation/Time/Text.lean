import Circulation.Text.Digits
import Circulation.Time.Moment

/-!
# Written dates and times

Dates are written as year, month and day; a year outside 0 to 9999 has a sign. Times have seconds
and, if they are not whole, a fraction of 3, 6 or 9 digits, the fewest that are exact. A leap
second is second 60. Instants are read with any offset from universal time and written in it.

Readers are more lenient than writers: blanks are skipped before each number and mark, fields may
be shorter, and digits of a fraction after the ninth are ignored.
-/

namespace Circulation

open Text

/-! ## Writing -/

namespace Date

/-- The year with at least four digits, signed unless it is between 0 and 9999. -/
def yearChars (year : Int) : List Char :=
  let digits := if year.natAbs < 10000 then fixed 4 year.natAbs else decimal year.natAbs
  if 0 ≤ year ∧ year ≤ 9999 then digits else (if year < 0 then '-' else '+') :: digits

def chars (d : Date) : List Char :=
  let c := d.civil
  yearChars c.year ++ '-' :: fixed 2 c.month ++ '-' :: fixed 2 c.day

def toText (d : Date) : String := String.ofList d.chars

end Date

/-- A fraction of a second: nothing when zero, otherwise 3, 6 or 9 digits. -/
def fractionChars (nano : Nat) : List Char :=
  if nano = 0 then []
  else if nano % 1000000 = 0 then '.' :: fixed 3 (nano / 1000000)
  else if nano % 1000 = 0 then '.' :: fixed 6 (nano / 1000)
  else '.' :: fixed 9 nano

/-- A time of day, given as seconds since midnight and fraction. -/
def clockChars (second nano : Nat) : List Char :=
  let extra := nano / nanosPerSecond
  fixed 2 (second / 3600) ++ ':' :: fixed 2 (second / 60 % 60) ++
    ':' :: fixed 2 (second % 60 + extra) ++ fractionChars (nano % nanosPerSecond)

def TimeOfDay.chars (t : TimeOfDay) : List Char := clockChars t.second t.nano

def TimeOfDay.toText (t : TimeOfDay) : String := String.ofList t.chars

/-- Date and time of day with `separator` between them. -/
def Moment.chars {f : Frame} (m : Moment f) (separator : Char) : List Char :=
  m.date.chars ++ separator :: clockChars m.secondOfDay m.nano

namespace LocalTime

def toText (l : LocalTime) : String := String.ofList (l.chars 'T')

/-- The form used in messages. -/
def display (l : LocalTime) : String := String.ofList (l.chars ' ')

end LocalTime

namespace Instant

def toText (t : Instant) : String := String.ofList (t.chars 'T' ++ ['Z'])

/-- The form used in messages. -/
def display (t : Instant) : String := String.ofList (t.chars ' ') ++ " UTC"

/-- An offset from universal time in hours and minutes. -/
def offsetChars (offset : Int) : List Char :=
  let minutes := offset.natAbs / 60
  (if offset < 0 then '-' else '+') :: fixed 2 (minutes / 60) ++ ':' :: fixed 2 (minutes % 60)

/-- The local time `offset` seconds ahead of universal time, followed by the offset. -/
def toTextAt (t : Instant) (offset : Int) : String :=
  let l : LocalTime := ⟨t.second + offset, t.nano, t.nano_lt⟩
  String.ofList (l.chars 'T' ++ offsetChars offset)

end Instant

/-! ## Reading -/

namespace Date

/-- A year: any number of digits after a sign, up to four without. -/
def year? (cs : List Char) : Option (Int × List Char) :=
  match skipBlanks cs with
  | '-' :: rest => (number? rest.length rest).map fun (n, rest) => (-(n : Int), rest)
  | '+' :: rest => (number? rest.length rest).map fun (n, rest) => ((n : Int), rest)
  | cs => (number? 4 cs).map fun (n, rest) => ((n : Int), rest)

/-- A date at the start of the text. -/
def read? (cs : List Char) : Option (Date × List Char) := do
  let (year, cs) ← year? cs
  let cs ← mark? '-' cs
  let (month, cs) ← field? 2 cs
  let cs ← mark? '-' cs
  let (day, cs) ← field? 2 cs
  let d ← ofCivil? ⟨year, month, day⟩
  some (d, cs)

def ofChars? (cs : List Char) : Option Date := do
  let (d, rest) ← read? cs
  if (skipBlanks rest).isEmpty then some d else none

def ofText? (s : String) : Option Date := ofChars? s.toList

end Date

/-- A fraction of one to nine digits in nanoseconds, zero if there is none; further digits are
skipped. -/
def fraction? : List Char → Option (Nat × List Char)
  | '.' :: rest => do
    let (n, after) ← number? 9 rest
    let read := rest.length - after.length
    some (n * Nat.pow 10 (9 - read), (spanDigits after.length after).2)
  | cs => some (0, cs)

namespace TimeOfDay

/-- Hour and minute. -/
def hourMinute? (cs : List Char) : Option (Nat × Nat × List Char) := do
  let (hour, cs) ← field? 2 cs
  let cs ← mark? ':' cs
  let (minute, cs) ← field? 2 cs
  some (hour, minute, cs)

/-- The seconds after a minute with their fraction. -/
def seconds? (cs : List Char) : Option (Nat × Nat × List Char) := do
  let cs ← mark? ':' cs
  let (second, cs) ← field? 2 cs
  let (nano, cs) ← fraction? cs
  some (second, nano, cs)

/-- A time with seconds at the start of the text. -/
def read? (cs : List Char) : Option (TimeOfDay × List Char) := do
  let (hour, minute, cs) ← hourMinute? cs
  let (second, nano, cs) ← seconds? cs
  let t ← ofClock? hour minute second nano
  some (t, cs)

/-- Seconds may be left out. -/
def ofChars? (cs : List Char) : Option TimeOfDay := do
  let (hour, minute, cs) ← hourMinute? cs
  let (second, nano, cs) := (seconds? cs).getD (0, 0, cs)
  if (skipBlanks cs).isEmpty then ofClock? hour minute second nano else none

def ofText? (s : String) : Option TimeOfDay := ofChars? s.toList

end TimeOfDay

namespace LocalTime

def ofChars? (cs : List Char) : Option LocalTime := do
  let (d, cs) ← Date.read? cs
  let cs ← mark? 'T' cs
  let (t, cs) ← TimeOfDay.read? cs
  if (skipBlanks cs).isEmpty then some (d.at t) else none

def ofText? (s : String) : Option LocalTime := ofChars? s.toList

end LocalTime

namespace Instant

def skipColons (cs : List Char) : List Char :=
  cs.dropWhile fun c => c = ':' || isBlank c

/-- Exactly two digits. -/
def twoDigits? : List Char → Option (Nat × List Char)
  | a :: b :: rest =>
    if a.isDigit && b.isDigit then some (digitsValue [a, b], rest) else none
  | _ => none

/-- Hours and minutes of an offset, in seconds. -/
def offsetSize? (cs : List Char) : Option (Int × List Char) := do
  let (hours, cs) ← twoDigits? cs
  let (minutes, cs) ← twoDigits? (skipColons cs)
  if minutes < 60 then some ((3600 * hours + 60 * minutes : Nat), cs) else none

/-- An offset from universal time in seconds: `Z`, `UTC`, or a sign with hours and minutes. -/
def offset? (cs : List Char) : Option (Int × List Char) :=
  match skipBlanks cs with
  | 'Z' :: rest | 'z' :: rest => some (0, rest)
  | '+' :: rest => offsetSize? rest
  | '-' :: rest | '\u2212' :: rest => (offsetSize? rest).map fun (n, rest) => (-n, rest)
  | u :: t :: c :: rest =>
    if u.toUpper = 'U' && t.toUpper = 'T' && c.toUpper = 'C' then some (0, rest) else none
  | _ => none

/-- The date and the time of day are separated by the letter T or a blank. -/
def separator? : List Char → Option (List Char)
  | c :: rest => if c = 'T' || c = 't' || c = ' ' then some rest else none
  | [] => none

def ofChars? (cs : List Char) : Option Instant := do
  let (d, cs) ← Date.read? cs
  let cs ← separator? cs
  let (t, cs) ← TimeOfDay.read? cs
  let (offset, cs) ← offset? cs
  if (skipBlanks cs).isEmpty ∧ offset.natAbs < 86400 then
    let l := d.at t
    Moment.checked? ⟨l.second - offset, l.nano, l.nano_lt⟩
  else none

def ofText? (s : String) : Option Instant := ofChars? s.toList

end Instant

end Circulation
