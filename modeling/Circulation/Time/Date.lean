/-!
# Calendar dates

A date is a day number, counted from 1970-01-01 in the proleptic Gregorian calendar, so that the
days before and after it are its number less and plus one. `Date.civil` gives its year, month and
day of month, `Date.ofCivil?` goes back. Dates from `Date.first` to `Date.last` can be
represented; arithmetic that leaves this range gives nothing.
-/

namespace Circulation

/-- A calendar date. -/
@[ext]
structure Date where
  /-- Days since 1970-01-01. -/
  day : Int
  deriving DecidableEq, Repr

/-- A date by year, month and day of month. -/
structure Civil where
  year : Int
  month : Nat
  day : Nat
  deriving DecidableEq, Repr

namespace Date

instance : LT Date := ⟨fun a b => a.day < b.day⟩
instance : LE Date := ⟨fun a b => a.day ≤ b.day⟩
instance (a b : Date) : Decidable (a < b) := inferInstanceAs (Decidable (a.day < b.day))
instance (a b : Date) : Decidable (a ≤ b) := inferInstanceAs (Decidable (a.day ≤ b.day))
instance : Max Date := maxOfLe
instance : Min Date := minOfLe

theorem lt_def {a b : Date} : a < b ↔ a.day < b.day := Iff.rfl
theorem le_def {a b : Date} : a ≤ b ↔ a.day ≤ b.day := Iff.rfl

/-! ## Years and months -/

def isLeap (year : Int) : Bool :=
  year % 4 = 0 ∧ (year % 100 ≠ 0 ∨ year % 400 = 0)

/-- The day number of 1 January. -/
def yearStart (year : Int) : Int :=
  365 * (year - 1) + (year - 1) / 4 - (year - 1) / 100 + (year - 1) / 400 - 719162

theorem yearStart_of_cycles (cycle : Int) {century four rest : Int} (hc : 0 ≤ century ∧ century ≤ 3)
    (hf : 0 ≤ four ∧ four ≤ 24) (hr : 0 ≤ rest ∧ rest ≤ 3) :
    yearStart (400 * cycle + 100 * century + 4 * four + rest + 1) =
      146097 * cycle + 36524 * century + 1461 * four + 365 * rest - 719162 := by
  have h4 : (400 * cycle + 100 * century + 4 * four + rest + 1 - 1) / 4 =
      100 * cycle + 25 * century + four := by omega
  have h100 : (400 * cycle + 100 * century + 4 * four + rest + 1 - 1) / 100 =
      4 * cycle + century := by omega
  have h400 : (400 * cycle + 100 * century + 4 * four + rest + 1 - 1) / 400 = cycle := by omega
  rw [yearStart, h4, h100, h400]
  omega

/-- The year a day number falls in, by cycles of 400, 100, 4 years and one. The last century of a
cycle and the last year of four can be a day longer than the others. -/
def yearOf (day : Int) : Int :=
  let inCycle := (day + 719162) % 146097
  let century := min (inCycle / 36524) 3
  let inCentury := inCycle - 36524 * century
  let rest := min (inCentury % 1461 / 365) 3
  400 * ((day + 719162) / 146097) + 100 * century + 4 * (inCentury / 1461) + rest + 1

theorem yearStart_yearOf_le (day : Int) : yearStart (yearOf day) ≤ day := by
  simp only [yearOf]
  rw [yearStart_of_cycles _ (by omega) (by omega) (by omega)]
  omega

theorem lt_yearStart_yearOf_succ (day : Int) : day < yearStart (yearOf day + 1) := by
  simp only [yearOf]
  generalize hcycle : (day + 719162) / 146097 = cycle
  generalize hcent : min ((day + 719162) % 146097 / 36524) 3 = century
  generalize hfour : ((day + 719162) % 146097 - 36524 * century) / 1461 = four
  generalize hrest : min (((day + 719162) % 146097 - 36524 * century) % 1461 / 365) 3 = rest
  by_cases hr : rest < 3
  · rw [show 400 * cycle + 100 * century + 4 * four + rest + 1 + 1 =
      400 * cycle + 100 * century + 4 * four + (rest + 1) + 1 by omega,
      yearStart_of_cycles _ (by omega) (by omega) (by omega)]
    omega
  by_cases hf : four < 24
  · rw [show 400 * cycle + 100 * century + 4 * four + rest + 1 + 1 =
      400 * cycle + 100 * century + 4 * (four + 1) + 0 + 1 by omega,
      yearStart_of_cycles _ (by omega) (by omega) (by omega)]
    omega
  by_cases hc : century < 3
  · rw [show 400 * cycle + 100 * century + 4 * four + rest + 1 + 1 =
      400 * cycle + 100 * (century + 1) + 4 * 0 + 0 + 1 by omega,
      yearStart_of_cycles _ (by omega) (by omega) (by omega)]
    omega
  · rw [show 400 * cycle + 100 * century + 4 * four + rest + 1 + 1 =
      400 * (cycle + 1) + 100 * 0 + 4 * 0 + 0 + 1 by omega,
      yearStart_of_cycles _ (by omega) (by omega) (by omega)]
    omega

/-- The days a year has beyond 365. -/
def leapDays (year : Int) : Nat :=
  if isLeap year then 1 else 0

/-- The days of a year before the first of the month. -/
def daysBefore (leapDays : Nat) : Nat → Nat
  | 0 | 1 => 0
  | 2 => 31
  | 3 => 59 + leapDays
  | 4 => 90 + leapDays
  | 5 => 120 + leapDays
  | 6 => 151 + leapDays
  | 7 => 181 + leapDays
  | 8 => 212 + leapDays
  | 9 => 243 + leapDays
  | 10 => 273 + leapDays
  | 11 => 304 + leapDays
  | 12 => 334 + leapDays
  | _ => 365 + leapDays

/-- The month in which a day of the year, counted from 0, falls. -/
def monthOf (leapDays dayOfYear : Nat) : Nat :=
  if dayOfYear < 31 then 1
  else if dayOfYear < 59 + leapDays then 2
  else if dayOfYear < 90 + leapDays then 3
  else if dayOfYear < 120 + leapDays then 4
  else if dayOfYear < 151 + leapDays then 5
  else if dayOfYear < 181 + leapDays then 6
  else if dayOfYear < 212 + leapDays then 7
  else if dayOfYear < 243 + leapDays then 8
  else if dayOfYear < 273 + leapDays then 9
  else if dayOfYear < 304 + leapDays then 10
  else if dayOfYear < 334 + leapDays then 11
  else 12

def monthLength (year : Int) (month : Nat) : Nat :=
  daysBefore (leapDays year) (month + 1) - daysBefore (leapDays year) month

theorem daysBefore_monthOf_le (l n : Nat) : daysBefore l (monthOf l n) ≤ n := by
  unfold monthOf
  repeat' refine iteInduction (motive := (daysBefore l · ≤ n)) (fun _ => ?_) fun _ => ?_
  all_goals simp only [daysBefore]; omega

/-! ## Civil dates -/

def civil (d : Date) : Civil :=
  let year := yearOf d.day
  let dayOfYear := (d.day - yearStart year).toNat
  let month := monthOf (leapDays year) dayOfYear
  ⟨year, month, dayOfYear - daysBefore (leapDays year) month + 1⟩

/-- The date with the given year, month and day of month, which need not be in their ranges. -/
def ofCivil (c : Civil) : Date :=
  ⟨yearStart c.year + daysBefore (leapDays c.year) c.month + c.day - 1⟩

/-- The first date that can be represented, -262143-01-01. -/
def first : Date := ⟨-96465292⟩

/-- The last date that can be represented, +262142-12-31. -/
def last : Date := ⟨95026236⟩

theorem first_eq : first = ofCivil ⟨-262143, 1, 1⟩ := by decide
theorem last_eq : last = ofCivil ⟨262142, 12, 31⟩ := by decide

def InRange (d : Date) : Prop := first ≤ d ∧ d ≤ last

instance (d : Date) : Decidable d.InRange := inferInstanceAs (Decidable (_ ∧ _))

def checked? (d : Date) : Option Date :=
  if d.InRange then some d else none

/-- The month and the day of month exist in the calendar. -/
def Exists (c : Civil) : Prop :=
  1 ≤ c.month ∧ c.month ≤ 12 ∧ 1 ≤ c.day ∧ c.day ≤ monthLength c.year c.month

instance (c : Civil) : Decidable (Exists c) := inferInstanceAs (Decidable (_ ∧ _))

def ofCivil? (c : Civil) : Option Date :=
  if Exists c then (ofCivil c).checked? else none

/-! ## Neighbours and months -/

def addDays (d : Date) (n : Int) : Date := ⟨d.day + n⟩

/-- The following date, unless there is none. -/
def next? (d : Date) : Option Date :=
  if d < last then some (d.addDays 1) else none

/-- The preceding date, unless there is none. -/
def previous? (d : Date) : Option Date :=
  if first < d then some (d.addDays (-1)) else none

/-- The same day of the month `n` months later, or the last day of that month if it is shorter. -/
def addMonths (d : Date) (n : Int) : Date :=
  let c := d.civil
  let months := 12 * c.year + (c.month - 1) + n
  let year := months / 12
  let month := (months % 12).toNat + 1
  ofCivil ⟨year, month, min c.day (monthLength year month)⟩

/-- The dates from `start` on, `count` of them. -/
def upFrom (start : Date) : Nat → List Date
  | 0 => []
  | count + 1 => start :: upFrom (start.addDays 1) count

end Date

end Circulation
