import Circulation.Proofs.Zone.Resolve
import Circulation.Strategy
import Circulation.Zone.Named

/-!
# Ends of days

A local time resolves to the earliest instant that shows it, or else to the earliest one that shows
the local time an hour later. A date therefore ends when the zone's clock first shows its 23:59:59,
and on the next date where the clock is set forward past that. What is due at the end of the
requested date is due before the request only if the clock was set back between the two.
-/

namespace Circulation

namespace Zone

variable {z : Zone} {t requested : Instant} {d : Date}

/-- The instant is the end of the date. -/
structure EndsDay (z : Zone) (d : Date) (t : Instant) : Prop where
  shown : (z.shownAt (d.at .lastSecond)).Nonempty → IsLeast (z.shownAt (d.at .lastSecond)) t
  /-- A clock that is set forward past the last second shows an hour more instead. -/
  skipped : z.shownAt (d.at .lastSecond) = ∅ →
    IsLeast (z.shownAt (hourLater (d.at .lastSecond))) t
  /-- That is on the next date, which is in the calendar. -/
  next : z.shownAt (d.at .lastSecond) = ∅ → (d.addDays 1).InRange

theorem date_hourLater_lastSecond (d : Date) :
    (hourLater (d.at .lastSecond)).date = d.addDays 1 := by
  rw [Date.ext_iff]
  simp only [Moment.date, second_hourLater, Date.at, TimeOfDay.lastSecond, Date.addDays]
  omega

theorem endOfDay_eq_ok_iff : z.endOfDay d = .ok t ↔ z.EndsDay d t := by
  unfold endOfDay
  rw [resolve_eq_ok_iff, Moment.InRange, date_hourLater_lastSecond]
  refine ⟨?_, fun h => ?_⟩
  · rintro (hshown | ⟨hempty, hnext, hlater⟩)
    · have hne := hshown.nonempty.ne_empty
      exact ⟨fun _ => hshown, fun hempty => absurd hempty hne, fun hempty => absurd hempty hne⟩
    · exact ⟨fun hne => absurd hempty hne.ne_empty, fun _ => hlater, fun _ => hnext⟩
  · rcases Set.eq_empty_or_nonempty (z.shownAt (d.at .lastSecond)) with hempty | hne
    · exact .inr ⟨hempty, h.next hempty, h.skipped hempty⟩
    · exact .inl (h.shown hne)

/-- The end of a date falls on it just where the clock shows its last second. -/
theorem EndsDay.localDate_eq_iff (h : z.EndsDay d t) :
    z.localDate t = d ↔ (z.shownAt (d.at .lastSecond)).Nonempty := by
  refine ⟨fun hdate => ?_, fun hne => ?_⟩
  · by_contra hnone
    have hlater : z.toLocal t = hourLater (d.at .lastSecond) :=
      (h.skipped (Set.not_nonempty_iff_eq_empty.mp hnone)).1.1
    rw [localDate, hlater, date_hourLater_lastSecond, Date.ext_iff] at hdate
    simp only [Date.addDays] at hdate
    omega
  · rw [localDate, (h.shown hne).1.1, Date.date_at]

/-- At the end of a date the clock shows the last second of the date or a later time. -/
theorem EndsDay.le_toLocal (h : z.EndsDay d t) : d.at .lastSecond ≤ z.toLocal t := by
  rcases Set.eq_empty_or_nonempty (z.shownAt (d.at .lastSecond)) with hempty | hne
  · rw [(h.skipped hempty).1.1]
    refine (Moment.lt_of_date_lt ?_).le
    rw [date_hourLater_lastSecond, Date.date_at, Date.lt_def]
    simp only [Date.addDays]
    omega
  · rw [(h.shown hne).1.1]

/-- The end of an instant's date comes before the instant only if the clock is set back between
the two. -/
theorem EndsDay.offsetAt_lt (h : z.EndsDay (z.localDate requested) t)
    (hlt : t < .ofSecond requested.second) :
    z.offsetAt requested.second < z.offsetAt t.second := by
  have hle := h.le_toLocal
  simp only [Moment.le_def, Moment.lt_def, Moment.ofSecond, Moment.date, Date.at, localDate,
    toLocal, TimeOfDay.lastSecond] at hle hlt
  omega

end Zone

namespace Strategy

open Zone

/-- A date ends when the zone's clock first shows 23:59:59 of it, and so on that date just where the
clock shows this time. A due date that keeps its date is the end of the requested date, no earlier
than the request with its fraction dropped unless the clock is set back between the two. -/
theorem keepCurrentDate_endsDay (z : Zone) :
    (∀ d due, z.endOfDay d = .ok due ↔ z.EndsDay d due) ∧
    (∀ d due, z.endOfDay d = .ok due →
      (z.localDate due = d ↔ (z.shownAt (d.at .lastSecond)).Nonempty)) ∧
    ∀ t requested due, (keepCurrentDate z).dueDate t requested = .ok due →
      z.EndsDay (z.localDate requested) due ∧
      (due < .ofSecond requested.second →
        z.offsetAt requested.second < z.offsetAt due.second) := by
  refine ⟨fun d due => endOfDay_eq_ok_iff, fun d due hdue => ?_, fun t requested due hdue => ?_⟩
  · exact (endOfDay_eq_ok_iff.mp hdue).localDate_eq_iff
  · have hends := endOfDay_eq_ok_iff.mp hdue
    exact ⟨hends, hends.offsetAt_lt⟩

/-- A request in the second of the two hours before midnight of 24 October 2026 in Beirut. -/
def repeatedHour : Instant := .ofSecond 1792877400

/-- It is due at the end of the first of them. -/
theorem keepCurrentDate_endsDay_repeatedHour :
    let due : Instant := .ofSecond 1792875599
    (keepCurrentDate Zone.beirut).dueDate (.empty Zone.beirut) repeatedHour = .ok due ∧
    due < .ofSecond repeatedHour.second ∧
    Zone.beirut.EndsDay (Zone.beirut.localDate repeatedHour) due ∧
    Zone.beirut.localDate due = Zone.beirut.localDate repeatedHour ∧
    (Zone.beirut.shownAt ((Zone.beirut.localDate repeatedHour).at .lastSecond)).Nonempty ∧
    Zone.beirut.offsetAt repeatedHour.second < Zone.beirut.offsetAt due.second := by
  intro due
  obtain ⟨-, hdate, hkeeps⟩ := keepCurrentDate_endsDay Zone.beirut
  have hdue : (keepCurrentDate Zone.beirut).dueDate (.empty Zone.beirut) repeatedHour =
      .ok due := by decide +kernel
  have hlt : due < .ofSecond repeatedHour.second := by decide
  have hsame : Zone.beirut.localDate due = Zone.beirut.localDate repeatedHour := by decide +kernel
  obtain ⟨hends, hback⟩ := hkeeps _ _ _ hdue
  exact ⟨hdue, hlt, hends, hsame, (hdate _ _ hdue).mp hsame, hback hlt⟩

/-- Nuuk sets its clock forward from eleven at night on 30 March 2024 to midnight. -/
def nuuk : Zone := ⟨"America/Nuuk", -7200, [(1711846800, -3600)]⟩

/-- Where the last hour of a date is shown twice, the end of the date comes before a request in the
second one, and where it is left out, what is requested on the date is due on the next. -/
theorem keepCurrentDate_leavesDate :
    (∃ due, (keepCurrentDate Zone.beirut).dueDate (.empty Zone.beirut) repeatedHour = .ok due ∧
      due < .ofSecond repeatedHour.second) ∧
    ∃ due, (keepCurrentDate nuuk).dueDate (.empty nuuk) (.ofSecond 1711807200) = .ok due ∧
      nuuk.localDate due ≠ nuuk.localDate (.ofSecond 1711807200) := by
  refine ⟨⟨.ofSecond 1792875599, ?_, ?_⟩, ⟨.ofSecond 1711850399, ?_, ?_⟩⟩
  all_goals decide +kernel

end Strategy

end Circulation
