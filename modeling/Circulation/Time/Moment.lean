import Circulation.Time.Date

/-!
# Times of day, local times and instants

A moment is a second on a time line with a fraction in nanoseconds. There are two time lines: the
universal one, whose moments are instants, and the wall clock of a zone, whose moments are local
times. A fraction of a second or more marks a leap second: it is shown as second 60 and lies
between its own second and the next one. Moments are ordered by second and then by fraction.
-/

namespace Circulation

def nanosPerSecond : Nat := 1000000000

/-! ## Times of day -/

/-- A time of day. Any second can be a leap second, although clocks have them only at the end of a
minute. -/
structure TimeOfDay where
  /-- Seconds since midnight. -/
  second : Nat
  /-- Fraction in nanoseconds, a second or more for a leap second. -/
  nano : Nat
  second_lt : second < 86400 := by omega
  nano_lt : nano < 2000000000 := by omega
  deriving DecidableEq, Repr

namespace TimeOfDay

instance : LT TimeOfDay :=
  ⟨fun a b => a.second < b.second ∨ (a.second = b.second ∧ a.nano < b.nano)⟩
instance : LE TimeOfDay :=
  ⟨fun a b => a.second < b.second ∨ (a.second = b.second ∧ a.nano ≤ b.nano)⟩
instance (a b : TimeOfDay) : Decidable (a < b) := inferInstanceAs (Decidable (_ ∨ _))
instance (a b : TimeOfDay) : Decidable (a ≤ b) := inferInstanceAs (Decidable (_ ∨ _))

def midnight : TimeOfDay := ⟨0, 0, by omega, by omega⟩

/-- 23:59:00, from which on a closing time stands for midnight. -/
def almostMidnight : TimeOfDay := ⟨86340, 0, by omega, by omega⟩

/-- 23:59:59, the conventional end of a loan day. -/
def lastSecond : TimeOfDay := ⟨86399, 0, by omega, by omega⟩

/-- The time of day with the given hour, minute, second and fraction. Second 60 is the leap second
of its minute. -/
def ofClock? (hour minute second nano : Nat) : Option TimeOfDay :=
  if h : hour < 24 ∧ minute < 60 ∧ second ≤ 60 ∧ nano < 1000000000 then
    if hs : second = 60 then
      some ⟨3600 * hour + 60 * minute + 59, 1000000000 + nano, by omega, by omega⟩
    else some ⟨3600 * hour + 60 * minute + second, nano, by omega, by omega⟩
  else none

end TimeOfDay

/-! ## Moments -/

/-- The time line a moment lies on. -/
inductive Frame where
  /-- Universal time. -/
  | utc
  /-- The wall clock of a zone. -/
  | wall

/-- A point on a time line. -/
structure Moment (frame : Frame) where
  /-- Seconds since the start of 1970-01-01 on this time line. -/
  second : Int
  /-- Fraction in nanoseconds, a second or more for a leap second. -/
  nano : Nat
  nano_lt : nano < 2000000000 := by omega
  deriving DecidableEq, Repr

abbrev Instant := Moment .utc
abbrev LocalTime := Moment .wall

namespace Moment

variable {f : Frame}

instance : LT (Moment f) :=
  ⟨fun a b => a.second < b.second ∨ (a.second = b.second ∧ a.nano < b.nano)⟩
instance : LE (Moment f) :=
  ⟨fun a b => a.second < b.second ∨ (a.second = b.second ∧ a.nano ≤ b.nano)⟩
instance (a b : Moment f) : Decidable (a < b) := inferInstanceAs (Decidable (_ ∨ _))
instance (a b : Moment f) : Decidable (a ≤ b) := inferInstanceAs (Decidable (_ ∨ _))
instance : Max (Moment f) := maxOfLe
instance : Min (Moment f) := minOfLe

theorem lt_def {a b : Moment f} :
    a < b ↔ a.second < b.second ∨ (a.second = b.second ∧ a.nano < b.nano) := Iff.rfl

theorem le_def {a b : Moment f} :
    a ≤ b ↔ a.second < b.second ∨ (a.second = b.second ∧ a.nano ≤ b.nano) := Iff.rfl

theorem ext_iff' {a b : Moment f} : a = b ↔ a.second = b.second ∧ a.nano = b.nano := by
  cases a; cases b; simp

theorem le_refl (a : Moment f) : a ≤ a := by
  rw [le_def]; omega

theorem le_trans {a b c : Moment f} (h : a ≤ b) (h' : b ≤ c) : a ≤ c := by
  rw [le_def] at *; omega

theorem le_total (a b : Moment f) : a ≤ b ∨ b ≤ a := by
  rw [le_def, le_def]; omega

theorem le_antisymm {a b : Moment f} (h : a ≤ b) (h' : b ≤ a) : a = b := by
  rw [le_def] at *; rw [ext_iff']; omega

theorem not_le {a b : Moment f} : ¬ a ≤ b ↔ b < a := by
  rw [le_def, lt_def]; omega

theorem not_lt {a b : Moment f} : ¬ a < b ↔ b ≤ a := by
  rw [le_def, lt_def]; omega

/-! ## Dates and times of day -/

/-- The date on this time line. -/
def date (m : Moment f) : Date := ⟨m.second / 86400⟩

/-- Seconds since midnight on this time line. -/
def secondOfDay (m : Moment f) : Nat := (m.second % 86400).toNat

/-- Exactly 00:00:00 on this time line. -/
def IsMidnight (m : Moment f) : Prop := m.second % 86400 = 0 ∧ m.nano = 0

instance (m : Moment f) : Decidable m.IsMidnight := inferInstanceAs (Decidable (_ ∧ _))

/-- The date of the moment can be represented. -/
def InRange (m : Moment f) : Prop := m.date.InRange

instance (m : Moment f) : Decidable m.InRange := inferInstanceAs (Decidable m.date.InRange)

def checked? (m : Moment f) : Option (Moment f) :=
  if m.InRange then some m else none

/-! ## Elapsed time -/

def IsLeapSecond (m : Moment f) : Prop := nanosPerSecond ≤ m.nano

instance (m : Moment f) : Decidable m.IsLeapSecond := inferInstanceAs (Decidable (_ ≤ _))

/-- The moment `n` seconds later. A leap second counts as a second of its own: leaving it forwards
or backwards passes it, and no second at all leaves it alone. -/
def addSeconds (m : Moment f) (n : Int) : Moment f :=
  if m.IsLeapSecond then
    if 0 < n then ⟨m.second + n, m.nano - nanosPerSecond, by have := m.nano_lt; omega⟩
    else if n < 0 then ⟨m.second + n + 1, m.nano - nanosPerSecond, by have := m.nano_lt; omega⟩
    else m
  else ⟨m.second + n, m.nano, m.nano_lt⟩

/-- The leap second that lies between the two moments if the earlier one, by time of day, is one. -/
def leapBetween (a b : Moment f) : Int :=
  if b.secondOfDay < a.secondOfDay ∧ b.IsLeapSecond then 1
  else if a.secondOfDay < b.secondOfDay ∧ a.IsLeapSecond then -1
  else 0

/-- Nanoseconds from `b` to `a`. -/
def nanosSince (a b : Moment f) : Int :=
  (a.second - b.second + leapBetween a b) * nanosPerSecond + (a.nano - b.nano)

/-- Whole minutes in a number of nanoseconds, rounded toward zero. -/
def wholeMinutes (nanos : Int) : Int :=
  nanos.tdiv 60000000000

/-- Whole minutes from `b` to `a`, rounded toward zero. -/
def minutesSince (a b : Moment f) : Int :=
  wholeMinutes (nanosSince a b)

end Moment

/-- The local time at a time of day of the date. -/
def Date.at (d : Date) (t : TimeOfDay) : LocalTime :=
  ⟨86400 * d.day + t.second, t.nano, t.nano_lt⟩

theorem Date.date_at (d : Date) (t : TimeOfDay) : (d.at t).date = d := by
  have := t.second_lt
  simp only [Moment.date, Date.at]
  congr 1
  omega

end Circulation
