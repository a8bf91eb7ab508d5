import Circulation.Opening

/-!
# Timetables

A timetable is a line of open and closed intervals made from opening days. Windows that touch are
one open interval, and the gaps between open intervals are closed intervals, from the start of the
earliest date to the end of the latest. `Timetable.position?` finds an instant by binary search and
gives the interval that holds it with the intervals before and after.
-/

namespace Circulation

/-- A span of instants in which the service point is either open or closed. -/
structure Interval extends Span .utc where
  isOpen : Bool
  deriving DecidableEq, Repr

namespace Interval

def ofOpen (s : Span .utc) : Interval := ⟨s, true⟩

def ofClosed (start stop : Instant) : Interval := ⟨⟨start, stop⟩, false⟩

end Interval

/-- Intervals in order of time. -/
structure Timetable where
  intervals : List Interval
  /-- The zone in which closing times are expressed. -/
  zone : Zone
  deriving DecidableEq, Repr

namespace Timetable

/-- The timetable without intervals, for due dates that do not depend on opening hours. -/
def empty (zone : Zone) : Timetable := ⟨[], zone⟩

/-! ## From opening days -/

/-- The closed interval between two instants, if there is anything between them. -/
def gap (start stop : Instant) : List Interval :=
  if start < stop then [Interval.ofClosed start stop] else []

/-- The open spans from `cursor` on with the gaps before, between and after them. -/
def fill (cursor finish : Instant) : List (Span .utc) → List Interval
  | [] => gap cursor finish
  | s :: rest => gap cursor s.start ++ Interval.ofOpen s :: fill s.stop finish rest

/-- The earliest and the latest date of some days. -/
def dateRange : List OpeningDay → Option (Date × Date)
  | [] => none
  | d :: rest =>
    some (rest.foldl (fun m e => min m e.date) d.date, rest.foldl (fun m e => max m e.date) d.date)

/-- The first instant after `d`, or the first one of `d` if there is no following date. -/
def endOfCoverage (zone : Zone) (d : Date) : Result Instant :=
  zone.startOfDay (d.next?.getD d)

/-- The open time of some days as merged spans. -/
def openTime (days : List OpeningDay) : Result (List (Span .utc)) := do
  let spans ← days.mapM OpeningDay.openSpans
  return Span.merge spans.flatten

/-- The timetable of all dates of `days`, from the start of the earliest to the end of the latest
one, or further where open time does. -/
def ofDays (days : List OpeningDay) (zone : Zone) : Result Timetable :=
  match dateRange days with
  | none => .ok (empty zone)
  | some (firstDate, lastDate) => do
    let spans ← openTime days
    let start ← zone.startOfDay firstDate
    let stop ← endOfCoverage zone lastDate
    let cursor := (spans.head?.map (min start ·.start)).getD start
    let finish := (spans.getLast?.map (max stop ·.stop)).getD stop
    return ⟨fill cursor finish spans, zone⟩

/-- The timetable of a date and the open days around it. -/
def ofAdjacent (days : AdjacentDays) : Result Timetable :=
  ofDays days.days days.zone

/-! ## Looking up instants -/

/-- The number of leading elements that satisfy `p`, by halving, where those that do come before
those that do not. -/
def partitionPoint {α : Type} (p : α → Bool) (xs : List α) : Nat :=
  if h : xs = [] then 0
  else
    let middle := xs.length / 2
    have hm : middle < xs.length := by
      have := List.length_pos_iff.mpr h
      omega
    if p (xs.get ⟨middle, hm⟩) then middle + 1 + partitionPoint p (xs.drop (middle + 1))
    else partitionPoint p (xs.take middle)
termination_by xs.length
decreasing_by
  · rw [List.length_drop]; omega
  · rw [List.length_take]; omega

/-- An interval of a timetable with the intervals around it, the nearest first. -/
structure Position where
  before : List Interval
  here : Interval
  after : List Interval
  deriving DecidableEq, Repr

/-- The interval that holds an instant, unless the instant is outside the timetable. -/
def position? (t : Timetable) (instant : Instant) : Option Position :=
  let index := partitionPoint (fun i : Interval => i.stop ≤ instant) t.intervals
  match t.intervals.drop index with
  | [] => none
  | here :: after =>
    if instant ∈ here.toSpan then some ⟨(t.intervals.take index).reverse, here, after⟩ else none

/-- The time at which something due in an interval is due: the interval's end, or the second before
it when it ends at local midnight. -/
def closingTime (t : Timetable) (i : Interval) : Instant :=
  if (t.zone.toLocal i.stop).IsMidnight then i.stop.addSeconds (-1) else i.stop

namespace Position

/-- The nearest open interval before this one. -/
def previousOpen? (p : Position) : Option Interval := p.before.find? (·.isOpen)

/-- The nearest open interval after this one. -/
def nextOpen? (p : Position) : Option Interval := p.after.find? (·.isOpen)

/-- The open intervals after this one. -/
def openAfter (p : Position) : List Interval := p.after.filter (·.isOpen)

end Position

end Timetable

end Circulation
