import Circulation.Period
import Circulation.Timetable.Span

/-!
# Opening hours

An opening day says when a service point is open on one date: not at all, around the clock, or
during opening hours. Opening hours that close before they open run past midnight, and a closing
time of 23:59 or later stands for midnight. Adjacent days are a date and the nearest open days
before and after it.
-/

namespace Circulation

/-- One open window of a day, in local time. -/
structure OpeningHour where
  opens : TimeOfDay
  closes : TimeOfDay
  deriving DecidableEq, Repr

namespace OpeningHour

/-- The end of the window when it begins on `d`, given the following midnight. -/
def closing (h : OpeningHour) (d : Date) (midnight : LocalTime) : LocalTime :=
  if TimeOfDay.almostMidnight ≤ h.closes then midnight
  else if h.closes < h.opens then
    ⟨midnight.second + h.closes.second + (h.closes.nano / nanosPerSecond : Nat),
      h.closes.nano % nanosPerSecond,
      by have := h.closes.nano_lt; simp only [nanosPerSecond]; omega⟩
  else d.at h.closes

/-- The window on `d`, unless it is empty. The last date has no following midnight and no
windows. -/
def localWindow (h : OpeningHour) (d : Date) : Option (Span .wall) := do
  let next ← d.next?
  let start := d.at h.opens
  let stop := h.closing d (next.at .midnight)
  if start < stop then some ⟨start, stop⟩ else none

end OpeningHour

/-- The record of one date at a service point. -/
structure OpeningDay where
  date : Date
  /-- Open around the clock, whatever the hours. -/
  allDay : Bool
  /-- Whether the service point opens at all. -/
  opens : Bool
  hours : List OpeningHour
  /-- The zone of the local times. -/
  zone : Zone
  deriving DecidableEq, Repr

namespace OpeningDay

/-- A day on which the service point is closed. -/
def closed (date : Date) (zone : Zone) : OpeningDay := ⟨date, false, false, [], zone⟩

/-- A day on which the service point is open around the clock. -/
def aroundTheClock (date : Date) (zone : Zone) : OpeningDay := ⟨date, true, true, [], zone⟩

/-- A day with the given hours, closed if there are none. -/
def withHours (date : Date) (zone : Zone) (hours : List OpeningHour) : OpeningDay :=
  ⟨date, false, !hours.isEmpty, hours.mergeSort fun a b => a.opens ≤ b.opens, zone⟩

/-- The open windows in order of their starts. -/
def openWindows (d : OpeningDay) : List (Span .wall) :=
  if d.opens then
    if d.allDay then [⟨d.date.at .midnight, (d.date.addDays 1).at .midnight⟩]
    else Span.sortByStart (d.hours.filterMap (·.localWindow d.date))
  else []

/-- Whether the day has any open time. -/
def isOpen (d : OpeningDay) : Bool :=
  d.opens && (d.allDay || !d.openWindows.isEmpty)

/-- The span of instants between the resolved ends of a local window, in that order. -/
def resolveWindow (z : Zone) (w : Span .wall) : Result (Span .utc) := do
  let start ← z.resolve w.start
  let stop ← z.resolve w.stop
  return ⟨start, stop⟩

/-- The open windows as spans of instants. -/
def openSpans (d : OpeningDay) : Result (List (Span .utc)) :=
  d.openWindows.mapM (resolveWindow d.zone)

/-- The open minutes on the day's own clock, each window rounded down. -/
def openMinutes (d : OpeningDay) : Int :=
  d.openWindows.foldr (fun w total => w.stop.minutesSince w.start + total) 0

end OpeningDay

/-- A date with the nearest open days around it. -/
structure AdjacentDays where
  previous : OpeningDay
  requested : OpeningDay
  next : OpeningDay
  deriving DecidableEq, Repr

namespace AdjacentDays

/-- The three days in order of time. -/
def days (a : AdjacentDays) : List OpeningDay := [a.previous, a.requested, a.next]

def zone (a : AdjacentDays) : Zone := a.requested.zone

end AdjacentDays

end Circulation
