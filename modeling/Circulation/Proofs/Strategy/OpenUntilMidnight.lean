import Circulation.Proofs.Strategy.Openings
import Circulation.Zone.Named

/-!
# Open until midnight

Hours that are open until midnight end when the clock first shows the next date's 00:00, and what is
due at closing is due in the second before. The clock shows that second as the last one of the day
unless it is set forward just then. If it is set forward past midnight the hours end an hour later
on the clock, and what is due at closing is due there.
-/

namespace Circulation

namespace OpeningDay

/-- The window is one of the day's, which is open around the clock or has hours for it that close at
23:59 or later. -/
def OpenUntilMidnight (d : OpeningDay) (w : Span .wall) : Prop :=
  w ∈ d.openWindows ∧ (d.allDay = true ∨
    ∃ h ∈ d.hours, h.localWindow d.date = some w ∧ TimeOfDay.almostMidnight ≤ h.closes)

theorem OpenUntilMidnight.stop_eq {d : OpeningDay} {w : Span .wall} (h : d.OpenUntilMidnight w) :
    w.stop = (d.date.addDays 1).at .midnight := by
  obtain ⟨hw, hallDay | ⟨hour, -, hwindow, hlate⟩⟩ := h
  · obtain ⟨-, hw⟩ := mem_openWindows_iff.mp hw
    rw [if_pos hallDay] at hw
    rw [hw]
  · obtain ⟨-, -, rfl⟩ := OpeningHour.localWindow_eq_some_iff.mp hwindow
    exact if_pos hlate

end OpeningDay

namespace Zone

variable {z : Zone} {d : Date} {t : Instant}

theorem second_at_midnight (d : Date) : (d.at .midnight).second = 86400 * d.day :=
  Int.add_zero _

theorem isMidnight_at (d : Date) : (d.at .midnight).IsMidnight := by
  refine ⟨?_, rfl⟩
  rw [second_at_midnight]
  omega

theorem not_isMidnight_hourLater (d : Date) : ¬ (hourLater (d.at .midnight)).IsMidnight := by
  rintro ⟨hsecond, -⟩
  rw [second_hourLater, second_at_midnight] at hsecond
  omega

theorem hourLater_midnight_ne_lastSecond (d : Date) :
    hourLater ((d.addDays 1).at .midnight) ≠ d.at .lastSecond := by
  intro heq
  have hsecond := congrArg Moment.second heq
  rw [second_hourLater, second_at_midnight] at hsecond
  simp only [Date.at, Date.addDays, TimeOfDay.lastSecond] at hsecond
  omega

/-- The second before midnight is shown as the last one of the date before, unless the clock is set
between the two. -/
theorem toLocal_secondBefore_iff (h : z.toLocal t = (d.addDays 1).at .midnight) :
    z.toLocal ⟨t.second - 1, t.nano, t.nano_lt⟩ = d.at .lastSecond ↔
      z.offsetAt (t.second - 1) = z.offsetAt t.second := by
  obtain ⟨hsecond, hnano⟩ := Moment.ext_iff'.mp h
  rw [Moment.ext_iff']
  simp only [toLocal, Date.at, Date.addDays, TimeOfDay.midnight, TimeOfDay.lastSecond] at *
  omega

end Zone

namespace Timetable

variable {days : List OpeningDay} {t : Timetable} {i : Interval} {d : OpeningDay} {w : Span .wall}
  {l : LocalTime}

/-- An interval that ends where a midnight resolves closes a second before it, if the clock shows
the midnight. -/
theorem closingTime_of_shown {date : Date} (hstop : t.zone.resolve (date.at .midnight) = .ok i.stop)
    (hshown : (t.zone.shownAt (date.at .midnight)).Nonempty) :
    t.zone.toLocal i.stop = date.at .midnight ∧
      t.closingTime i = ⟨i.stop.second - 1, i.stop.nano, i.stop.nano_lt⟩ := by
  rcases Zone.resolve_eq_ok_iff.mp hstop with hleast | ⟨hempty, -⟩
  · have hlocal := hleast.1.1
    have hmidnight : (t.zone.toLocal i.stop).IsMidnight := hlocal ▸ Zone.isMidnight_at date
    exact ⟨hlocal, Strategy.dueAtClosing_of_midnight hmidnight⟩
  · exact absurd hempty hshown.ne_empty

/-- It closes where it ends, an hour later on the clock, if the clock is set forward past the
midnight. -/
theorem closingTime_of_skipped {date : Date}
    (hstop : t.zone.resolve (date.at .midnight) = .ok i.stop)
    (hskipped : t.zone.shownAt (date.at .midnight) = ∅) :
    t.zone.toLocal i.stop = Zone.hourLater (date.at .midnight) ∧ t.closingTime i = i.stop := by
  rcases Zone.resolve_eq_ok_iff.mp hstop with hleast | ⟨-, -, hleast⟩
  · exact absurd hskipped hleast.nonempty.ne_empty
  · have hlocal := hleast.1.1
    have hmidnight : ¬ (t.zone.toLocal i.stop).IsMidnight :=
      hlocal ▸ Zone.not_isMidnight_hourLater date
    exact ⟨hlocal, if_neg hmidnight⟩

/-- Where an interval ends with a window that is open until midnight, it closes at 23:59:59 of the
day just if the clock shows that midnight and is not set to it. -/
theorem closingTime_untilMidnight (ht : ofDays days d.zone = .ok t) (hw : d.OpenUntilMidnight w)
    (hstop : d.zone.resolve w.stop = .ok i.stop) :
    (d.zone.toLocal (t.closingTime i) = d.date.at .lastSecond ↔
      (d.zone.shownAt w.stop).Nonempty ∧
        d.zone.offsetAt (i.stop.second - 1) = d.zone.offsetAt i.stop.second) ∧
    ((d.zone.shownAt w.stop).Nonempty →
      t.closingTime i = ⟨i.stop.second - 1, i.stop.nano, i.stop.nano_lt⟩) ∧
    (d.zone.shownAt w.stop = ∅ →
      t.closingTime i = i.stop ∧ d.zone.toLocal i.stop = Zone.hourLater w.stop) := by
  rw [hw.stop_eq] at hstop ⊢
  rw [← zone_of_ofDays ht] at hstop ⊢
  rcases Set.eq_empty_or_nonempty (t.zone.shownAt ((d.date.addDays 1).at .midnight)) with
    hskipped | hshown
  · obtain ⟨hlocal, hclosing⟩ := closingTime_of_skipped hstop hskipped
    refine ⟨⟨fun hlast => ?_, fun hboth => absurd hskipped hboth.1.ne_empty⟩,
      fun hne => absurd hskipped hne.ne_empty, fun _ => ⟨hclosing, hlocal⟩⟩
    rw [hclosing, hlocal] at hlast
    exact absurd hlast (Zone.hourLater_midnight_ne_lastSecond d.date)
  · obtain ⟨hlocal, hclosing⟩ := closingTime_of_shown hstop hshown
    refine ⟨?_, fun _ => hclosing, fun hempty => absurd hempty hshown.ne_empty⟩
    rw [hclosing, Zone.toLocal_secondBefore_iff hlocal]
    exact (and_iff_right hshown).symm

/-- Around the clock on 6 March 2026. -/
def marchSixth : OpeningDay := .aroundTheClock ⟨20518⟩ Zone.havana

/-- The next day, at the end of which the clock is set forward past midnight. -/
def marchSeventh : OpeningDay := .aroundTheClock ⟨20519⟩ Zone.havana

theorem closingTime_untilMidnight_marchSixth :
    let i : Interval := .ofOpen ⟨.ofSecond 1772773200, .ofSecond 1772859600⟩
    let t : Timetable := ⟨[i], Zone.havana⟩
    let w : Span .wall := ⟨(⟨20518⟩ : Date).at .midnight, (⟨20519⟩ : Date).at .midnight⟩
    ofDays [marchSixth] Zone.havana = .ok t ∧ marchSixth.OpenUntilMidnight w ∧
    Zone.havana.resolve w.stop = .ok i.stop ∧
    Zone.havana.toLocal (t.closingTime i) = (⟨20518⟩ : Date).at .lastSecond := by
  intro i t w
  have ht : ofDays [marchSixth] Zone.havana = .ok t := by decide +kernel
  have hw : marchSixth.OpenUntilMidnight w := ⟨List.mem_singleton.mpr rfl, .inl rfl⟩
  have hstop : Zone.havana.resolve w.stop = .ok i.stop := by decide
  have hshown : (Zone.havana.shownAt w.stop).Nonempty :=
    ⟨i.stop, by decide, by decide⟩
  exact ⟨ht, hw, hstop, (closingTime_untilMidnight ht hw hstop).1.mpr ⟨hshown, by decide⟩⟩

/-- What closes at the midnight that the clock skips closes at one o'clock of the next date. -/
theorem closingTime_marchSeventh :
    let i : Interval := .ofOpen ⟨.ofSecond 1772859600, .ofSecond 1772946000⟩
    let t : Timetable := ⟨[i], Zone.havana⟩
    let w : Span .wall := ⟨(⟨20519⟩ : Date).at .midnight, (⟨20520⟩ : Date).at .midnight⟩
    ofDays [marchSeventh] Zone.havana = .ok t ∧ marchSeventh.OpenUntilMidnight w ∧
    Zone.havana.resolve w.stop = .ok i.stop ∧ i ∈ t.intervals ∧ i.isOpen = true ∧
    t.closingTime i = i.stop ∧
    Zone.havana.localDate (t.closingTime i) = ⟨20520⟩ ∧
    Zone.havana.toLocal (t.closingTime i) ≠ (⟨20519⟩ : Date).at .lastSecond := by
  intro i t w
  exact ⟨by decide +kernel, ⟨List.mem_singleton.mpr rfl, .inl rfl⟩, by decide,
    List.mem_cons_self, rfl, by decide, by decide, by decide⟩

end Timetable

end Circulation
