import Circulation.Policy
import Circulation.Timetable.Basic

/-!
# Closed library strategies

A strategy moves a due date out of closed time with a timetable of the days around it. A date that
falls in open time stays where it is, except that `keepCurrentDate` always moves to the end of the
day. A date that the timetable does not hold, or that has no open interval in the direction of the
strategy, is an error that names the instant.
-/

namespace Circulation

inductive Strategy where
  /-- Due at 23:59:59 of the requested local date, open or not. -/
  | keepCurrentDate (zone : Zone)
  /-- Due exactly when requested. -/
  | keepCurrentDateTime
  /-- Due at the closing time of the nearest earlier open interval. -/
  | endOfPreviousOpenDay
  /-- Due at the last closing time of the next open day. -/
  | endOfNextOpenDay
  /-- Due at the next opening plus the offset, but no later than the closing time. -/
  | beginningOfNextOpenHours (offset : Option Period)
  /-- Due at the end of the open hours current at `now`, or of the next ones. -/
  | endOfCurrentHours (now : Instant)
  deriving DecidableEq, Repr

namespace Strategy

def name : Strategy → String
  | keepCurrentDate _ => "keep_current_date"
  | keepCurrentDateTime => "keep_current_date_time"
  | endOfPreviousOpenDay => "move_to_end_of_previous_open_day"
  | endOfNextOpenDay => "move_to_end_of_next_open_day"
  | beginningOfNextOpenHours _ => "move_to_beginning_of_next_open_service_point_hours"
  | endOfCurrentHours _ => "end_of_current_hours"

/-- Whether the strategy looks at opening hours at all. -/
def requiresCalendar : Strategy → Bool
  | keepCurrentDate _ | keepCurrentDateTime => false
  | _ => true

/-! ## Due dates -/

/-- The closing time of an open interval, or the failure to find one for the instant. -/
def closingOf (t : Timetable) (instant : Instant) (found : Option Interval) : Result Instant :=
  match found with
  | some i => .ok (t.closingTime i)
  | none => .error (.openPeriodsNotFound instant)

def locate (t : Timetable) (instant : Instant) : Result Timetable.Position :=
  match t.position? instant with
  | some p => .ok p
  | none => .error (.openPeriodsNotFound instant)

/-- Keeps a date in open time and moves one in closed time. -/
def leaveClosedTime (t : Timetable) (requested : Instant)
    (move : Timetable.Position → Result Instant) : Result Instant := do
  let p ← locate t requested
  if p.here.isOpen then return requested else move p

/-- The last of the open intervals, the first of which and all that follow it start on one local
date. -/
def lastOfDay? (zone : Zone) : List Interval → Option Interval
  | [] => none
  | first :: rest =>
    let sameDay := rest.takeWhile fun i => zone.localDate i.start = zone.localDate first.start
    some (sameDay.getLast?.getD first)

/-- The opening of an interval plus the offset, but no later than its closing time. -/
def openingWithOffset (t : Timetable) (offset : Option Period) (i : Interval) : Result Instant :=
  match offset.filter (!·.isZero) with
  | none => .ok i.start
  | some offset => do
    let shifted ← offset.plusDate t.zone i.start
    return min shifted (t.closingTime i)

/-- The end of the open hours current at `now`, or of the next ones. -/
def closingAfter (t : Timetable) (now : Instant) : Result Instant := do
  let p ← locate t now
  if p.here.isOpen then return t.closingTime p.here else closingOf t now p.nextOpen?

/-- The due date for the requested one. -/
def dueDate (s : Strategy) (t : Timetable) (requested : Instant) : Result Instant :=
  match s with
  | keepCurrentDate zone => zone.endOfDay (zone.localDate requested)
  | keepCurrentDateTime => .ok requested
  | endOfPreviousOpenDay =>
    leaveClosedTime t requested fun p => closingOf t requested p.previousOpen?
  | endOfNextOpenDay =>
    leaveClosedTime t requested fun p => closingOf t requested (lastOfDay? t.zone p.openAfter)
  | beginningOfNextOpenHours offset =>
    leaveClosedTime t requested fun p =>
      match p.nextOpen? with
      | some i => openingWithOffset t offset i
      | none => .error (.openPeriodsNotFound requested)
  | endOfCurrentHours now => leaveClosedTime t requested fun _ => closingAfter t now

/-! ## Choosing a strategy -/

/-- The strategy of a policy. The due dates of a fixed policy come from its schedule, so that they
keep their date and, if the policy says so, their time. -/
def ofPolicy (policy : LoanPolicy) (now : Instant) (zone : Zone) : Strategy :=
  match policy.profile, policy.management with
  | _, .keepCurrentDateTime => keepCurrentDateTime
  | .fixed, _ => keepCurrentDate zone
  | .rolling, .keepCurrentDate => keepCurrentDate zone
  | .rolling, .endOfPreviousOpenDay => endOfPreviousOpenDay
  | .rolling, .endOfNextOpenDay => endOfNextOpenDay
  | .rolling, .beginningOfNextOpenHours => beginningOfNextOpenHours policy.openingOffset
  | .rolling, .endOfCurrentHours => endOfCurrentHours now

/-- The strategy that moves a due date back under a limit: short loans end with the current hours,
others on the previous open day. -/
def movingBackward (policy : LoanPolicy) (now : Instant) : Strategy :=
  if policy.isShortTerm then endOfCurrentHours now else endOfPreviousOpenDay

end Strategy

end Circulation
