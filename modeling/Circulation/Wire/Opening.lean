import Circulation.Opening
import Circulation.Wire.Basic

/-!
# Opening days in JSON
-/

namespace Circulation.Wire

def openingHourJson (h : OpeningHour) : Json :=
  .obj [("startTime", timeOfDayJson h.opens), ("endTime", timeOfDayJson h.closes)]

def openingHour (j : Json) : Decoded OpeningHour := do
  let fs ← fields ["startTime", "endTime"] j
  return ⟨← required timeOfDay "startTime" fs, ← required timeOfDay "endTime" fs⟩

def openingDayJson (d : OpeningDay) : Json :=
  .obj [
    ("date", dateJson d.date),
    ("allDay", .bool d.allDay),
    ("open", .bool d.opens),
    ("openingHour", listJson openingHourJson d.hours),
    ("zone", zoneJson d.zone)]

def openingDay (zones : Zone.Table) (j : Json) : Decoded OpeningDay := do
  let fs ← fields ["date", "allDay", "open", "openingHour", "zone"] j
  return {
    date := ← required date "date" fs
    allDay := ← defaulted bool false "allDay" fs
    opens := ← required bool "open" fs
    hours := ← defaulted (list openingHour) [] "openingHour" fs
    zone := ← required (Wire.zone zones) "zone" fs }

def adjacentDaysJson (a : AdjacentDays) : Json :=
  .obj [
    ("previousDay", openingDayJson a.previous),
    ("openingDay", openingDayJson a.requested),
    ("nextDay", openingDayJson a.next)]

def adjacentDays (zones : Zone.Table) (j : Json) : Decoded AdjacentDays := do
  let fs ← fields ["previousDay", "openingDay", "nextDay"] j
  return {
    previous := ← required (openingDay zones) "previousDay" fs
    requested := ← required (openingDay zones) "openingDay" fs
    next := ← required (openingDay zones) "nextDay" fs }

end Circulation.Wire
