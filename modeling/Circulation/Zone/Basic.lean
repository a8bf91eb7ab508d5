import Circulation.Error

/-!
# Time zones

A zone is an offset from universal time together with the instants at which the offset changes.
`Zone.toLocal` shows an instant on the zone's wall clock and `Zone.resolve` goes back. The clock
can show a local time twice, and then the earlier instant is meant, or never, and then the local
time an hour later is meant. In the last hour of the calendar there is no local time an hour later.
-/

namespace Circulation

structure Zone where
  name : String
  /-- Seconds ahead of universal time before the first change. -/
  base : Int
  /-- Changes in order of time: the second of universal time and the offset from then on. -/
  changes : List (Int × Int)
  deriving DecidableEq, Repr

namespace Zone

/-- A table of the zones that are known, by their names. -/
abbrev Table := String → Option Zone

/-- The offset in force at a second of universal time. -/
def offsetAt (z : Zone) (second : Int) : Int :=
  z.changes.foldl (fun offset change => if change.1 ≤ second then change.2 else offset) z.base

/-- The offsets that the zone ever has. -/
def offsets (z : Zone) : List Int :=
  (z.base :: z.changes.map (·.2)).eraseDups

/-! ## Showing an instant -/

/-- What the zone's clock shows. Within a day of the ends of the calendar its date can lie outside
the calendar, and then it is no local time that anything could be done with. -/
def toLocal (z : Zone) (t : Instant) : LocalTime :=
  ⟨t.second + z.offsetAt t.second, t.nano, t.nano_lt⟩

def localDate (z : Zone) (t : Instant) : Date :=
  (z.toLocal t).date

/-! ## Resolving a local time -/

/-- The instant at which a clock `offset` seconds ahead of universal time shows the local time. -/
def instantAt (l : LocalTime) (offset : Int) : Instant :=
  ⟨l.second - offset, l.nano, l.nano_lt⟩

/-- The instants that the zone's clock shows as the local time. -/
def instantsOf (z : Zone) (l : LocalTime) : List Instant :=
  (z.offsets.map (instantAt l)).filter fun t => z.toLocal t = l ∧ t.InRange

def earliest? (z : Zone) (l : LocalTime) : Option Instant :=
  (z.instantsOf l).min?

/-- The local time an hour later, which the calendar may not have. -/
def hourLater (l : LocalTime) : LocalTime := l.addSeconds 3600

/-- The earliest instant with the local time, or with the local time an hour later if there is
none. -/
def resolve (z : Zone) (l : LocalTime) : Result Instant :=
  match z.earliest? l with
  | some t => .ok t
  | none =>
    match (hourLater l).checked? with
    | none => .error (.pastCalendar l)
    | some later =>
      match z.earliest? later with
      | some t => .ok t
      | none => .error (.invalidLocalTime l z.name)

/-- The first instant of the date. -/
def startOfDay (z : Zone) (d : Date) : Result Instant :=
  z.resolve (d.at .midnight)

/-- 23:59:59 of the date. -/
def endOfDay (z : Zone) (d : Date) : Result Instant :=
  z.resolve (d.at .lastSecond)

end Zone

end Circulation
