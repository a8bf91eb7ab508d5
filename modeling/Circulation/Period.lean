import Circulation.Zone.Basic

/-!
# Periods

A period is a number of units. Adding it to an instant moves the clock of a zone: minutes and hours
are elapsed time, while days, weeks and months move the local date and keep the time of day. For
comparison only, `Period.toMinutes` counts a month as 31 days.
-/

namespace Circulation

/-- The unit of a period. -/
inductive PeriodUnit where
  | minutes
  | hours
  | days
  | weeks
  | months
  deriving DecidableEq, Repr

namespace PeriodUnit

/-- All units, shortest first. -/
def all : List PeriodUnit := [minutes, hours, days, weeks, months]

def name : PeriodUnit → String
  | minutes => "Minutes"
  | hours => "Hours"
  | days => "Days"
  | weeks => "Weeks"
  | months => "Months"

/-- The length of the unit in minutes, a month being 31 days. -/
def lengthInMinutes : PeriodUnit → Int
  | minutes => 1
  | hours => 60
  | days => 1440
  | weeks => 10080
  | months => 44640

def ofName? (s : String) : Option PeriodUnit :=
  all.find? fun u => u.name = s

/-- Reads the unit given in a field of a policy. -/
def parse (field value : String) : Result PeriodUnit :=
  match ofName? value with
  | some u => .ok u
  | none => .error (.unrecognizedInterval field value)

theorem ofName?_name (u : PeriodUnit) : ofName? u.name = some u := by
  cases u <;> decide

end PeriodUnit

/-- A number of units. Zero stands for no period. -/
structure Period where
  duration : Int
  unit : PeriodUnit
  deriving DecidableEq, Repr

/-- The least duration that can be written. -/
def minDuration : Int := -9223372036854775808

/-- The greatest duration that can be written. -/
def maxDuration : Int := 9223372036854775807

namespace Period

def display (p : Period) : String :=
  toString p.duration ++ " " ++ p.unit.name

/-- Reads the parts of a period given in a field of a policy. Its duration must be positive. -/
def ofParts (field : String) (duration : Option Int) (unit : Option String) : Result Period := do
  let unit ← PeriodUnit.parse field (unit.getD "<missing>")
  match duration with
  | none => .error (.invalidDuration field "duration is missing")
  | some n =>
    if 0 < n then .ok ⟨n, unit⟩
    else .error (.invalidDuration field ("duration must be positive, got " ++ toString n))

def isZero (p : Period) : Bool := p.duration = 0

/-- Measured in minutes or hours, and so ending at an exact time. -/
def isShortTerm (p : Period) : Bool :=
  p.unit = .minutes ∨ p.unit = .hours

/-- The length in minutes, within the durations that can be written. -/
def toMinutes (p : Period) : Int :=
  max minDuration (min maxDuration (p.duration * p.unit.lengthInMinutes))

/-! ## Adding to an instant -/

def outOfRange (p : Period) : Error :=
  .invalidDuration "period" (p.display ++ " is out of range for date arithmetic")

/-- The local time `n` months later, at the same time of day. -/
def addMonths (l : LocalTime) (n : Int) : LocalTime :=
  ⟨l.second + 86400 * ((l.date.addMonths n).day - l.date.day), l.nano, l.nano_lt⟩

/-- The local time `n` units later, for a unit that moves the date. -/
def moveDate (unit : PeriodUnit) (l : LocalTime) (n : Int) : LocalTime :=
  match unit with
  | .months => addMonths l n
  | _ => l.addSeconds (60 * unit.lengthInMinutes * n)

/-- Moves an instant by `n` of the period's units on the clock of the zone. -/
def shift (p : Period) (z : Zone) (start : Instant) (n : Int) : Result Instant :=
  if p.isShortTerm then
    match (start.addSeconds (60 * p.unit.lengthInMinutes * n)).checked? with
    | some t => .ok t
    | none => .error p.outOfRange
  else
    match (moveDate p.unit (z.toLocal start) n).checked? with
    | some l => z.resolve l
    | none => .error p.outOfRange

/-- The instant one period after `start`. -/
def plusDate (p : Period) (z : Zone) (start : Instant) : Result Instant :=
  p.shift z start p.duration

/-- The instant one period before `start`. -/
def minusDate (p : Period) (z : Zone) (start : Instant) : Result Instant :=
  p.shift z start (-p.duration)

/-- Whether the period that begins at `start` is over. -/
def hasPassed (p : Period) (z : Zone) (start now : Instant) : Result Bool := do
  let finish ← p.plusDate z start
  return decide (finish ≤ now)

def hasNotPassed (p : Period) (z : Zone) (start now : Instant) : Result Bool := do
  let passed ← p.hasPassed z start now
  return !passed

end Period

end Circulation
