import Circulation.Proofs.Strategy.Direction
import Circulation.Proofs.Zone.EndOfDay

/-!
# Settled due dates

A strategy leaves what it has made of a date where it is. What is due at the beginning of open hours
is open. What is due when they close is open too if they close at midnight, and otherwise they are
the last open hours before it. The end of the current hours does not depend on the closed time from
which it is sought.
-/

namespace Circulation

open OpeningDay
open Timetable (Upright covered)

namespace Strategy

variable {days : List OpeningDay} {zone z : Zone} {t : Timetable} {all : List (Span .utc)}
  {u : Set Instant} {requested now due : Instant} {c : Span .utc}

/-- What comes of a date is the date itself, in open time, or was sought from closed time. -/
theorem MovesToComponents.open_or_closed (h : MovesToComponents t u requested) {s : Strategy}
    (hs : s.requiresCalendar = true) (hdue : s.dueDate t requested = .ok due) :
    (requested ∈ u ∧ due = requested) ∨ (requested ∈ covered t.intervals ∧ requested ∉ u) := by
  by_cases hopen : requested ∈ u
  · exact .inl ⟨hopen, Except.ok.inj (hdue.symm.trans (h.stays hopen s hs))⟩
  by_cases hcovered : requested ∈ covered t.intervals
  · exact .inr ⟨hcovered, hopen⟩
  · cases hdue.symm.trans (h.outside hcovered s hs)

/-! ## The last closing time -/

/-- Hours are due in open time or just when they close. -/
theorem FromWindows.closing_mem_or_eq_stop (h : FromWindows t all)
    (hwhole : ∀ w ∈ all, w.start.nano = 0) (hc : Span.IsComponent (Span.union all) c) :
    closing t c ∈ Span.union all ∨ closing t c = c.stop := by
  have hstart := h.start_le_closing hwhole hc
  rcases (dueAtClosing_le t.zone c.stop).lt_or_eq with hlt | heq
  · exact .inl (hc.subset _ ⟨hstart, hlt⟩)
  · exact .inr heq

/-- The last hours before a date are the last ones before their own closing time too. -/
theorem FromWindows.endOfPreviousOpenDay_closing (h : FromWindows t all)
    (hwhole : ∀ w ∈ all, w.start.nano = 0) (hcovered : requested ∈ covered t.intervals)
    (hc : Span.IsLastBefore (Span.union all) requested c) :
    endOfPreviousOpenDay.dueDate t (closing t c) = .ok (closing t c) := by
  obtain ⟨hcomponent, hle, -⟩ := hc
  have hmoves := h.movesToComponents (closing t c)
  by_cases hopen : closing t c ∈ Span.union all
  · exact hmoves.stays hopen _ rfl
  · have hstop : closing t c = c.stop :=
      (h.closing_mem_or_eq_stop hwhole hcomponent).resolve_left hopen
    have hstart : c.start ∈ covered t.intervals :=
      h.union_subset_covered (hcomponent.subset _ ⟨le_rfl, hcomponent.start_lt⟩)
    have hin : closing t c ∈ covered t.intervals := by
      rw [hstop]
      exact h.mem_covered_of_between hstart hcovered hcomponent.start_lt.le hle
    refine (hmoves.endOfPreviousOpenDay hin hopen).of_found c ⟨hcomponent, hstop.ge, ?_⟩
    exact fun d _ hd => hd.trans hstop.le

theorem FromWindows.endOfPreviousOpenDay_settled (h : FromWindows t all)
    (hwhole : ∀ w ∈ all, w.start.nano = 0)
    (hdue : endOfPreviousOpenDay.dueDate t requested = .ok due) :
    endOfPreviousOpenDay.dueDate t due = .ok due := by
  have hmoves := h.movesToComponents requested
  rcases hmoves.open_or_closed rfl hdue with ⟨-, rfl⟩ | ⟨hcovered, hout⟩
  · exact hdue
  · obtain ⟨c, hc, rfl⟩ := (hmoves.endOfPreviousOpenDay hcovered hout).exists_of_ok hdue
    exact h.endOfPreviousOpenDay_closing hwhole hcovered hc

/-! ## The next opening and the end of the current hours -/

theorem FromWindows.beginningOfNextOpenHours_settled (h : FromWindows t all)
    (hdue : (beginningOfNextOpenHours none).dueDate t requested = .ok due) :
    (beginningOfNextOpenHours none).dueDate t due = .ok due := by
  have hmoves := h.movesToComponents requested
  rcases hmoves.open_or_closed rfl hdue with ⟨-, rfl⟩ | ⟨hcovered, hout⟩
  · exact hdue
  · obtain ⟨c, ⟨hc, -⟩, rfl⟩ := (hmoves.beginningOfNextOpenHours hcovered hout).exists_of_ok hdue
    exact (h.movesToComponents c.start).stays (hc.subset _ ⟨le_rfl, hc.start_lt⟩) _ rfl

theorem FromWindows.endOfCurrentHours_eq (h : FromWindows t all)
    (hcovered : requested ∈ covered t.intervals) (hout : requested ∉ Span.union all) :
    (endOfCurrentHours now).dueDate t requested = closingAfter t now := by
  obtain ⟨cursor, finish, hfits, ht⟩ := h.filled
  rw [← Span.union_merge] at hout
  obtain ⟨p, hmove, -⟩ := exists_leaveClosedTime_eq hfits ht hcovered hout
  simp only [dueDate, hmove]

theorem FromWindows.endOfCurrentHours_settled (h : FromWindows t all)
    (hdue : (endOfCurrentHours now).dueDate t requested = .ok due)
    (hin : due ∈ covered t.intervals) : (endOfCurrentHours now).dueDate t due = .ok due := by
  rcases (h.movesToComponents requested).open_or_closed rfl hdue with ⟨-, rfl⟩ | ⟨hcovered, hout⟩
  · exact hdue
  by_cases hopen : due ∈ Span.union all
  · exact (h.movesToComponents due).stays hopen _ rfl
  · rw [h.endOfCurrentHours_eq hcovered hout] at hdue
    rw [h.endOfCurrentHours_eq hin hopen, hdue]

/-! ## Settled dates -/

theorem keepCurrentDate_settled
    (hshown : (z.shownAt ((z.localDate requested).at .lastSecond)).Nonempty)
    (hdue : (keepCurrentDate z).dueDate t requested = .ok due) :
    (keepCurrentDate z).dueDate t due = .ok due := by
  have hdate := (Zone.endOfDay_eq_ok_iff.mp hdue).localDate_eq_iff.mpr hshown
  rw [dueDate, hdate]
  exact hdue

/-- A strategy that has made a due date of some requested one makes the same of that due date. For
the end of the current hours this is so unless the timetable ends with those hours. -/
theorem dueDate_settled (ht : Timetable.ofDays days zone = .ok t) (hup : Upright days)
    (hwhole : ∀ d ∈ days, d.WholeSeconds) :
    (∀ requested due, endOfPreviousOpenDay.dueDate t requested = .ok due →
      endOfPreviousOpenDay.dueDate t due = .ok due) ∧
    (∀ requested due, (beginningOfNextOpenHours none).dueDate t requested = .ok due →
      (beginningOfNextOpenHours none).dueDate t due = .ok due) ∧
    (∀ now requested due, (endOfCurrentHours now).dueDate t requested = .ok due →
      (due ∈ covered t.intervals → (endOfCurrentHours now).dueDate t due = .ok due) ∧
      ∀ again, (endOfCurrentHours now).dueDate t due = .ok again → again = due) ∧
    ∀ z requested due, (z.shownAt ((z.localDate requested).at .lastSecond)).Nonempty →
      (keepCurrentDate z).dueDate t requested = .ok due →
      (keepCurrentDate z).dueDate t due = .ok due := by
  obtain ⟨all, hall, -, hfrom⟩ := exists_fromWindows ht hup
  refine ⟨fun requested due hdue => ?_, fun requested due hdue => ?_,
    fun now requested due hdue => ⟨fun hin => ?_, fun again hagain => ?_⟩,
    fun z requested due hshown hdue => ?_⟩
  · exact hfrom.endOfPreviousOpenDay_settled (nano_start_of_wholeSeconds hwhole hall) hdue
  · exact hfrom.beginningOfNextOpenHours_settled hdue
  · exact hfrom.endOfCurrentHours_settled hdue hin
  · by_cases hin : due ∈ covered t.intervals
    · exact Except.ok.inj (hagain.symm.trans (hfrom.endOfCurrentHours_settled hdue hin))
    · cases hagain.symm.trans ((hfrom.movesToComponents due).outside hin _ rfl)
  · exact keepCurrentDate_settled hshown hdue

/-- The hours close in closed time, from where each strategy leads to the same due date again. -/
theorem dueDate_settled_lateOpening :
    let before : Instant := .ofSecond 1774700000
    let close : Instant := .ofSecond 1774746000
    let dayEnd : Instant := .ofSecond 1774742399
    Upright Timetable.lateOpening ∧ (∀ d ∈ Timetable.lateOpening, d.WholeSeconds) ∧
    ∃ t, Timetable.ofDays Timetable.lateOpening Zone.london = .ok t ∧
      (endOfPreviousOpenDay.dueDate t (.ofSecond 1774800000) = .ok close ∧
        endOfPreviousOpenDay.dueDate t close = .ok close) ∧
      ((endOfCurrentHours before).dueDate t before = .ok close ∧
        (endOfCurrentHours before).dueDate t close = .ok close) ∧
      (keepCurrentDate Zone.london).dueDate t before = .ok dayEnd ∧
      (keepCurrentDate Zone.london).dueDate t dayEnd = .ok dayEnd := by
  intro before close dayEnd
  obtain ⟨hprevious, -, hcurrent, hkeep⟩ := dueDate_settled Timetable.ofDays_lateOpening
    Timetable.lateOpening_upright lateOpening_wholeSeconds
  have hback : endOfPreviousOpenDay.dueDate Timetable.lateTimetable (.ofSecond 1774800000) =
      .ok close := by with_unfolding_all decide
  have hnow : (endOfCurrentHours before).dueDate Timetable.lateTimetable before = .ok close := by
    with_unfolding_all decide
  have hclosed : close ∈ covered Timetable.lateTimetable.intervals :=
    ⟨_, .tail _ (.tail _ (.head _)), by decide⟩
  have hshown : dayEnd ∈ Zone.london.shownAt ((Zone.london.localDate before).at .lastSecond) :=
    ⟨by decide, by decide⟩
  have hday : (keepCurrentDate Zone.london).dueDate Timetable.lateTimetable before =
      .ok dayEnd := by decide +kernel
  exact ⟨Timetable.lateOpening_upright, lateOpening_wholeSeconds, _, Timetable.ofDays_lateOpening,
    ⟨hback, hprevious _ _ hback⟩, ⟨hnow, (hcurrent before before close hnow).1 hclosed⟩, hday,
    hkeep Zone.london before dayEnd ⟨dayEnd, hshown⟩ hday⟩

end Strategy

end Circulation
