import Circulation.Opening
import Circulation.ServicePoint

/-!
# Calendars

A calendar keeps the opening days recorded for each service point, one for a date: a later record
replaces an earlier one. A date without a record is closed. The zone of a service point is the zone
of the first day recorded for it.
-/

namespace Circulation

/-- The opening days of one service point, in order of date. -/
structure Register where
  zone : Zone
  days : List OpeningDay
  sorted : days.Pairwise fun a b => a.date < b.date

/-! ## Registers -/

namespace Register

/-- Puts a day into its place in a list of days, where it replaces the day of the same date. -/
def insertDay (day : OpeningDay) : List OpeningDay → List OpeningDay
  | [] => [day]
  | d :: rest =>
    if day.date < d.date then day :: d :: rest
    else if day.date = d.date then day :: rest
    else d :: insertDay day rest

theorem mem_insertDay {day e : OpeningDay} {days : List OpeningDay}
    (h : e ∈ insertDay day days) : e = day ∨ e ∈ days := by
  fun_induction insertDay day days <;> grind

theorem insertDay_pairwise {day : OpeningDay} {days : List OpeningDay}
    (h : days.Pairwise fun a b => a.date < b.date) :
    (insertDay day days).Pairwise fun a b => a.date < b.date := by
  fun_induction insertDay day days with
  | case1 => simp
  | case2 d rest hlt =>
    refine List.pairwise_cons.mpr ⟨fun e he => ?_, h⟩
    rcases List.mem_cons.mp he with rfl | he
    · exact hlt
    · exact Int.lt_trans hlt (List.rel_of_pairwise_cons h he)
  | case3 d rest _ heq =>
    obtain ⟨hd, hrest⟩ := List.pairwise_cons.mp h
    exact List.pairwise_cons.mpr ⟨fun e he => heq ▸ hd e he, hrest⟩
  | case4 d rest hlt hne ih =>
    obtain ⟨hd, hrest⟩ := List.pairwise_cons.mp h
    refine List.pairwise_cons.mpr ⟨fun e he => ?_, ih hrest⟩
    rcases mem_insertDay he with rfl | he
    · rw [Date.lt_def] at *
      have : e.date.day ≠ d.date.day := fun h => hne (Date.ext h)
      omega
    · exact hd e he

/-- A register with a single day. -/
def single (day : OpeningDay) : Register := ⟨day.zone, [day], by simp⟩

def insert (r : Register) (day : OpeningDay) : Register :=
  ⟨r.zone, insertDay day r.days, insertDay_pairwise r.sorted⟩

def day? (r : Register) (date : Date) : Option OpeningDay :=
  r.days.find? fun d => d.date = date

/-- The record of a date, or a closed day if there is none. -/
def day (r : Register) (date : Date) : OpeningDay :=
  (r.day? date).getD (.closed date r.zone)

/-- The latest open day before the date, or else a closed day just before it. -/
def openBefore (r : Register) (date : Date) : OpeningDay :=
  (r.days.filter fun d => d.date < date ∧ d.isOpen).getLast?.getD
    (.closed (date.previous?.getD date) r.zone)

/-- The earliest open day after the date, or else a closed day just after it. -/
def openAfter (r : Register) (date : Date) : OpeningDay :=
  let following := date.next?.getD date
  (r.days.find? fun d => following ≤ d.date ∧ d.isOpen).getD (.closed following r.zone)

def adjacent (r : Register) (date : Date) : AdjacentDays :=
  ⟨r.openBefore date, r.day date, r.openAfter date⟩

/-- The dates from `first` to `last`, less the last date of all. -/
def datesBetween (first last : Date) : List Date :=
  first.upFrom (min (last.day + 1) Date.last.day - first.day).toNat

/-- The days from one local date to another, both included. -/
def between (r : Register) (first last : Date) (includeClosed : Bool) : List OpeningDay :=
  if includeClosed then (datesBetween first last).map r.day
  else r.days.filter fun d => first ≤ d.date ∧ d.date ≤ last ∧ d.date < Date.last ∧ d.isOpen

end Register

/-! ## Calendars -/

/-- The registers of service points. -/
structure Calendar where
  registers : List (ServicePoint × Register)

namespace Calendar

/-- The calendar that knows no service point. -/
def empty : Calendar := ⟨[]⟩

def register? (c : Calendar) (servicePoint : ServicePoint) : Option Register :=
  c.registers.lookup servicePoint

/-- Records a day for a service point in a list of registers. -/
def record (servicePoint : ServicePoint) (day : OpeningDay) :
    List (ServicePoint × Register) → List (ServicePoint × Register)
  | [] => [(servicePoint, .single day)]
  | (other, r) :: rest =>
    if servicePoint = other then (other, r.insert day) :: rest
    else (other, r) :: record servicePoint day rest

/-- Records an opening day, in place of any earlier record of its date. -/
def addDay (c : Calendar) (servicePoint : ServicePoint) (day : OpeningDay) : Calendar :=
  ⟨record servicePoint day c.registers⟩

def addDays (c : Calendar) (servicePoint : ServicePoint) (days : List OpeningDay) : Calendar :=
  days.foldl (·.addDay servicePoint ·) c

/-- The number of dates recorded for a service point. -/
def dayCount (c : Calendar) (servicePoint : ServicePoint) : Nat :=
  ((c.register? servicePoint).map (·.days.length)).getD 0

def unavailable (servicePoint : ServicePoint) : Error :=
  .calendarUnavailable servicePoint.toText "no calendar data for service point"

/-- The register of a service point, which must have been recorded. -/
def register (c : Calendar) (servicePoint : ServicePoint) : Result Register :=
  match c.register? servicePoint with
  | some r => .ok r
  | none => .error (unavailable servicePoint)

/-- The date with the nearest open days before and after it. -/
def adjacentDays (c : Calendar) (servicePoint : ServicePoint) (date : Date) :
    Result AdjacentDays := do
  let r ← c.register servicePoint
  return r.adjacent date

/-- The days whose dates lie between those of two instants in the service point's zone, with closed
days only if wanted. -/
def daysBetween (c : Calendar) (servicePoint : ServicePoint) (start stop : Instant)
    (includeClosed : Bool) : Result (List OpeningDay) := do
  let r ← c.register servicePoint
  return r.between (r.zone.localDate start) (r.zone.localDate stop) includeClosed

end Calendar

end Circulation
