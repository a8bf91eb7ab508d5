import Circulation.Period
import Circulation.Schedule

/-!
# Policies

A loan policy says how the due date of a loan is found and what becomes of one that falls into
closed time. A fine policy says which overdue time counts.
-/

namespace Circulation

/-- How a loan policy finds the due date. -/
inductive Profile where
  /-- The loan date plus the loan period. -/
  | rolling
  /-- The date that a schedule gives. -/
  | fixed
  deriving DecidableEq, Repr

/-- What becomes of a due date while the service point is closed. -/
inductive Management where
  | keepCurrentDate
  | keepCurrentDateTime
  | endOfPreviousOpenDay
  | endOfNextOpenDay
  | beginningOfNextOpenHours
  | endOfCurrentHours
  deriving DecidableEq, Repr

namespace Profile

def all : List Profile := [rolling, fixed]

def name : Profile → String
  | rolling => "rolling"
  | fixed => "fixed"

def ofName? (s : String) : Option Profile := all.find? fun p => p.name = s

theorem ofName?_name (p : Profile) : ofName? p.name = some p := by
  cases p <;> decide

end Profile

namespace Management

def all : List Management :=
  [keepCurrentDate, keepCurrentDateTime, endOfPreviousOpenDay, endOfNextOpenDay,
    beginningOfNextOpenHours, endOfCurrentHours]

def name : Management → String
  | keepCurrentDate => "keep_current_date"
  | keepCurrentDateTime => "keep_current_date_time"
  | endOfPreviousOpenDay => "move_to_end_of_previous_open_day"
  | endOfNextOpenDay => "move_to_end_of_next_open_day"
  | beginningOfNextOpenHours => "move_to_beginning_of_next_open_service_point_hours"
  | endOfCurrentHours => "move_to_end_of_current_service_point_hours"

def ofName? (s : String) : Option Management := all.find? fun m => m.name = s

theorem ofName?_name (m : Management) : ofName? m.name = some m := by
  cases m <;> decide

end Management

/-! ## Loan policies -/

structure LoanPolicy where
  id : String
  name : String
  profile : Profile
  /-- The loan period, which a rolling policy needs. -/
  period : Option Period
  management : Management
  /-- The schedule of due dates, which a fixed policy needs. -/
  schedule : Option Schedule
  /-- The outer bound on the due dates of a rolling policy. -/
  limit : Option Schedule
  /-- Added when a due date moves to the beginning of open hours. -/
  openingOffset : Option Period
  deriving DecidableEq, Repr

namespace LoanPolicy

/-- A rolling policy that is named after its identifier. -/
def rolling (id : String) (period : Period) (management : Management) : LoanPolicy :=
  ⟨id, id, .rolling, some period, management, none, none, none⟩

/-- A fixed policy that is named after its identifier. -/
def fixed (id : String) (schedule : Schedule) (management : Management) : LoanPolicy :=
  ⟨id, id, .fixed, none, management, some schedule, none, none⟩

def withLimit (p : LoanPolicy) (limit : Schedule) : LoanPolicy :=
  { p with limit := some limit }

def withOpeningOffset (p : LoanPolicy) (offset : Period) : LoanPolicy :=
  { p with openingOffset := some offset }

def isFixed (p : LoanPolicy) : Bool := p.profile = .fixed

/-- The loan period, which must not be zero. -/
def loanPeriod (p : LoanPolicy) : Result Period :=
  match p.period.filter (!·.isZero) with
  | some period => .ok period
  | none => .error (.policyMisconfigured p.id "rolling profile requires a loan period")

def fixedSchedule (p : LoanPolicy) : Result Schedule :=
  match p.schedule with
  | some schedule => .ok schedule
  | none =>
    .error (.policyMisconfigured p.id "fixed profile requires a fixed due date schedule")

/-- Whether loans are due at an exact time rather than at the end of a day. -/
def isShortTerm (p : LoanPolicy) : Bool :=
  !p.isFixed && p.period.any (·.isShortTerm)

end LoanPolicy

/-! ## Fine policies -/

structure FinePolicy where
  id : String
  /-- Whether closed time counts as overdue. If the policy does not say, nothing counts. -/
  countClosed : Option Bool
  /-- Whether a recalled loan has no grace period. -/
  ignoreGraceForRecalls : Option Bool
  /-- Overdue time that is forgiven. -/
  gracePeriod : Option Period
  deriving DecidableEq, Repr

/-- The length of the grace period, zero if there is none. -/
def FinePolicy.graceMinutes (p : FinePolicy) : Int :=
  (p.gracePeriod.map (·.toMinutes)).getD 0

end Circulation
