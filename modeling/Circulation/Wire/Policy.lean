import Circulation.Policy
import Circulation.Wire.Basic

/-!
# Policies in JSON

A period is written as duration and unit. Reading one refuses a duration that is not positive, with
the reason, although a period that was made directly can be written.
-/

namespace Circulation.Wire

/-! ## Periods -/

def periodJson (p : Period) : Json :=
  .obj [("duration", .int p.duration), ("intervalId", .str p.unit.name)]

/-- The parts of a period, both of them if they are in a list. -/
def periodParts (j : Json) : Decoded (Option Int × Option String) := do
  let fs ← fields ["duration", "intervalId"] j
  match j, fs with
  | .arr _, [_] | .arr _, [] => .error .malformed
  | _, _ =>
    let duration ← optional int "duration" fs
    let unit ← optional string "intervalId" fs
    return (duration, unit)

def period (j : Json) : Decoded Period := do
  let (duration, unit) ← periodParts j
  match Period.ofParts "period" duration unit with
  | .ok p => .ok p
  | .error e => .error (.period e)

/-! ## Schedules -/

def dueRangeJson (r : DueRange) : Json :=
  .obj [("from", dateJson r.start), ("to", dateJson r.stop), ("due", dateJson r.due)]

def dueRange (j : Json) : Decoded DueRange := do
  let fs ← fields ["from", "to", "due"] j
  return ⟨← required date "from" fs, ← required date "to" fs, ← required date "due" fs⟩

def scheduleJson (s : Schedule) : Json :=
  .obj [("id", .str s.id), ("schedules", listJson dueRangeJson s.ranges)]

def schedule (j : Json) : Decoded Schedule := do
  let fs ← fields ["id", "schedules"] j
  return ⟨← required string "id" fs, ← required (list dueRange) "schedules" fs⟩

/-! ## Loan policies -/

def loanPolicyJson (p : LoanPolicy) : Json :=
  .obj [
    ("id", .str p.id),
    ("name", .str p.name),
    ("profile", .str p.profile.name),
    ("period", optionJson periodJson p.period),
    ("due_date_management", .str p.management.name),
    ("fixed_due_date_schedules", optionJson scheduleJson p.schedule),
    ("due_date_limit_schedules", optionJson scheduleJson p.limit),
    ("opening_time_offset", optionJson periodJson p.openingOffset)]

def profile : Json → Decoded Profile := tag Profile.ofName?
def management : Json → Decoded Management := tag Management.ofName?

def loanPolicy (j : Json) : Decoded LoanPolicy := do
  let fs ← fields ["id", "name", "profile", "period", "due_date_management",
    "fixed_due_date_schedules", "due_date_limit_schedules", "opening_time_offset"] j
  return {
    id := ← required string "id" fs
    name := ← required string "name" fs
    profile := ← required profile "profile" fs
    period := ← optional period "period" fs
    management := ← required management "due_date_management" fs
    schedule := ← optional schedule "fixed_due_date_schedules" fs
    limit := ← optional schedule "due_date_limit_schedules" fs
    openingOffset := ← optional period "opening_time_offset" fs }

/-! ## Fine policies -/

def finePolicyJson (p : FinePolicy) : Json :=
  .obj [
    ("id", .str p.id),
    ("count_closed_periods", optionJson .bool p.countClosed),
    ("ignore_grace_period_for_recalls", optionJson .bool p.ignoreGraceForRecalls),
    ("grace_period", optionJson periodJson p.gracePeriod)]

def finePolicy (j : Json) : Decoded FinePolicy := do
  let fs ← fields ["id", "count_closed_periods", "ignore_grace_period_for_recalls",
    "grace_period"] j
  return {
    id := ← required string "id" fs
    countClosed := ← optional bool "count_closed_periods" fs
    ignoreGraceForRecalls := ← optional bool "ignore_grace_period_for_recalls" fs
    gracePeriod := ← optional period "grace_period" fs }

end Circulation.Wire
