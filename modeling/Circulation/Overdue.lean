import Circulation.Calendar
import Circulation.Loan
import Circulation.Policy
import Circulation.Timetable.Basic

/-!
# Overdue minutes

Overdue time is the time since the due date or, if the fine policy does not count closed time, the
open time of the item's service point since then. Overdue time within the grace period is forgiven.
-/

namespace Circulation.Overdue

/-- The length of the non-empty spans in nanoseconds. -/
def totalNanos (spans : List (Span .utc)) : Int :=
  (spans.filter fun s => s.start < s.stop).foldr
    (fun s total => s.stop.nanosSince s.start + total) 0

/-- Whole minutes between two instants in which any of the days is open. Time in the hours of
several days counts once. -/
def openMinutes (days : List OpeningDay) (start stop : Instant) : Result Int := do
  let spans ← Timetable.openTime days
  return Moment.wholeMinutes (totalNanos (spans.map (·.clip start stop)))

/-- Forgives minutes under the grace period, unless the policy denies it to the recalled loan. -/
def afterGrace (loan : Loan) (policy : FinePolicy) (minutes : Int) : Int :=
  if loan.recalled ∧ policy.ignoreGraceForRecalls = some true then minutes
  else if minutes < policy.graceMinutes then 0
  else minutes

/-- A day before the instant: hours that opened then can still be running. -/
def dayBefore (t : Instant) : Instant :=
  (t.addSeconds (-86400)).checked?.getD t

/-- The overdue minutes of a loan before any grace period. -/
def elapsedMinutes (c : Calendar) (loan : Loan) (countClosed : Bool) (now : Instant) :
    Result Int :=
  match countClosed, loan.primaryServicePoint with
  | false, some servicePoint => do
    let days ← c.daysBetween servicePoint (dayBefore loan.dueDate) now false
    openMinutes days loan.dueDate now
  | _, _ => .ok (now.minutesSince loan.dueDate)

/-- The overdue minutes of a loan: none if the policy does not say whether closed time counts, or if
the loan is not overdue. -/
def minutes (c : Calendar) (loan : Loan) (policy : FinePolicy) (now : Instant) : Result Int :=
  match policy.countClosed with
  | none => .ok 0
  | some countClosed =>
    if loan.isOverdue now then do
      let elapsed ← elapsedMinutes c loan countClosed now
      return afterGrace loan policy elapsed
    else .ok 0

end Circulation.Overdue
