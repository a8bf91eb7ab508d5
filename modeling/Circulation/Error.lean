import Circulation.Time.Text

/-!
# Errors

The reasons for which a calculation, a calendar or the settings can fail, and the wording of each.
The last one is not reported to anybody: the calculation stops there.
-/

namespace Circulation

inductive Error where
  | configNotFound (path : String)
  | configParse (path message : String)
  | unrecognizedInterval (field value : String)
  | invalidDuration (field message : String)
  | policyMisconfigured (policyId message : String)
  /-- The timetable has no interval for the instant. -/
  | openPeriodsNotFound (instant : Instant)
  | calendarUnavailable (servicePoint message : String)
  /-- The zone's clocks never show the local time. -/
  | invalidLocalTime (localTime : LocalTime) (zone : String)
  | loanDateOutsideSchedule (scheduleId : String) (loanDate : Date)
  /-- The calendar ends within an hour after the local time. -/
  | pastCalendar (localTime : LocalTime)
  deriving DecidableEq, Repr

namespace Error

def message : Error → String
  | configNotFound path => "Configuration file not found: " ++ path
  | configParse path text => "Failed to parse configuration file '" ++ path ++ "': " ++ text
  | unrecognizedInterval field value =>
    "Unrecognized interval '" ++ value ++ "' for field '" ++ field ++ "'"
  | invalidDuration field text => "Invalid duration for field '" ++ field ++ "': " ++ text
  | policyMisconfigured id text => "Loan policy '" ++ id ++ "' is misconfigured: " ++ text
  | openPeriodsNotFound instant =>
    "Calendar open periods are not found for " ++ Instant.display instant
  | calendarUnavailable servicePoint text =>
    "Calendar unavailable for service point '" ++ servicePoint ++ "': " ++ text
  | invalidLocalTime l zone =>
    "Local time " ++ LocalTime.display l ++ " cannot be resolved in zone " ++ zone
  | loanDateOutsideSchedule id date =>
    "Loan date " ++ date.toText ++ " is not covered by fixed due date schedule '" ++ id ++ "'"
  | pastCalendar l => "The calendar ends within an hour after " ++ LocalTime.display l

end Error

/-- The result of a calculation that can fail. -/
abbrev Result := Except Error

end Circulation
