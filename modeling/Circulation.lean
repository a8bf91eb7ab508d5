import Circulation.DueDate
import Circulation.Json.Reader
import Circulation.Json.Writer
import Circulation.Overdue
import Circulation.Proofs.Calendar.Adjacent
import Circulation.Proofs.Calendar.LastRecord
import Circulation.Proofs.Calendar.OpenDays
import Circulation.Proofs.Calendar.Reach
import Circulation.Proofs.Calendar.Records
import Circulation.Proofs.DueDate.AllDays
import Circulation.Proofs.DueDate.Around
import Circulation.Proofs.DueDate.AuditTrail
import Circulation.Proofs.DueDate.DaysAround
import Circulation.Proofs.DueDate.Initial
import Circulation.Proofs.DueDate.KeptDate
import Circulation.Proofs.DueDate.LaterLimit
import Circulation.Proofs.DueDate.Limit
import Circulation.Proofs.DueDate.NearestWindow
import Circulation.Proofs.DueDate.OpenDays
import Circulation.Proofs.DueDate.TwoZones
import Circulation.Proofs.Opening.LocalWindow
import Circulation.Proofs.Opening.Window
import Circulation.Proofs.Overdue.AtClosing
import Circulation.Proofs.Overdue.DayMinutes
import Circulation.Proofs.Overdue.Later
import Circulation.Proofs.Overdue.Length
import Circulation.Proofs.Overdue.OpenTime
import Circulation.Proofs.Period.Exact
import Circulation.Proofs.Period.Move
import Circulation.Proofs.Strategy.Ahead
import Circulation.Proofs.Strategy.ClosedTime
import Circulation.Proofs.Strategy.CurrentHours
import Circulation.Proofs.Strategy.OpenUntilMidnight
import Circulation.Proofs.Strategy.Openings
import Circulation.Proofs.Strategy.Settled
import Circulation.Proofs.Time.Month
import Circulation.Proofs.Timetable.Component
import Circulation.Proofs.Timetable.Coverage
import Circulation.Proofs.Timetable.Inner
import Circulation.Proofs.Timetable.Merge
import Circulation.Proofs.Timetable.Nearest
import Circulation.Proofs.Timetable.NormalForm
import Circulation.Proofs.Timetable.Unbroken
import Circulation.Proofs.Wire.RoundTrip
import Circulation.Proofs.Zone.EndOfDay
import Circulation.Proofs.Zone.Fixed
import Circulation.Proofs.Zone.Inverse
import Circulation.Settings
import Circulation.Wire.Loan
import Circulation.Wire.Opening
import Circulation.Wire.Policy
