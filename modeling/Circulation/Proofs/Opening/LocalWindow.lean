import Circulation.Proofs.Calendar.Records
import Circulation.Proofs.Opening.Window
import Circulation.Proofs.Timetable.Merge

/-!
# Where local windows lie

Without leap seconds, a window stops no later than the hour opens on the following date. So it lasts
a day at most, ends before the second date after its own, and misses the window of the same hour on
the following date. An hour has a window on every date but the last one, unless it closes when it
opens and that before the last minute of the day. A day is open when its windows hold some local
time.
-/

namespace Circulation

namespace OpeningHour

variable {h : OpeningHour} {d : Date} {w : Span .wall}

/-- The hour neither opens nor closes in a leap second. -/
def NoLeap (h : OpeningHour) : Prop :=
  ¬ nanosPerSecond ≤ h.opens.nano ∧ ¬ nanosPerSecond ≤ h.closes.nano

instance (h : OpeningHour) : Decidable h.NoLeap := inferInstanceAs (Decidable (_ ∧ _))

/-- The hour would open and close at one time, which does not stand for midnight. -/
def IsEmpty (h : OpeningHour) : Prop := h.opens = h.closes ∧ h.closes < .almostMidnight

instance (h : OpeningHour) : Decidable h.IsEmpty := inferInstanceAs (Decidable (_ ∧ _))

/-- The window starts on the date when the hour opens and lasts a day at most. Even past the
following midnight it stops by the time at which the hour opens again, and so it ends within the
following date and misses the window there. -/
structure IsWindow (h : OpeningHour) (d : Date) (w : Span .wall) : Prop where
  start_eq : w.start = d.at h.opens
  start_lt : w.start < w.stop
  stop_le : w.stop ≤ w.start.addSeconds 86400
  stop_le_opens : w.stop ≤ (d.addDays 1).at h.opens
  date_le : ∀ m ∈ w, d ≤ m.date ∧ m.date ≤ d.addDays 1
  misses_next : ∀ next, h.localWindow (d.addDays 1) = some next → w.Misses next

theorem closing_le (hleap : h.NoLeap) (d : Date) :
    h.closing d ((d.addDays 1).at .midnight) ≤ (d.addDays 1).at h.opens := by
  have hcloses := h.closes.second_lt
  unfold closing
  split
  · simp only [Moment.le_def, Date.at, Date.addDays, TimeOfDay.midnight]
    omega
  · split
    · rename_i hlt
      obtain ⟨-, hnano⟩ := hleap
      rw [TimeOfDay.lt_def] at hlt
      simp only [nanosPerSecond] at hnano
      simp only [Moment.le_def, Date.at, Date.addDays, TimeOfDay.midnight, nanosPerSecond]
      omega
    · simp only [Moment.le_def, Date.at, Date.addDays]
      omega

theorem lt_closing_iff (h : OpeningHour) (d : Date) :
    d.at h.opens < h.closing d ((d.addDays 1).at .midnight) ↔ ¬ h.IsEmpty := by
  have hopens := h.opens.second_lt
  rw [IsEmpty, TimeOfDay.eq_iff, TimeOfDay.lt_def]
  unfold closing
  split
  · rename_i hlate
    rw [TimeOfDay.le_def] at hlate
    simp only [Moment.lt_def, Date.at, Date.addDays, TimeOfDay.midnight]
    omega
  · rename_i hearly
    rw [TimeOfDay.le_def] at hearly
    split
    · rename_i hlt
      rw [TimeOfDay.lt_def] at hlt
      simp only [Moment.lt_def, Date.at, Date.addDays, TimeOfDay.midnight, nanosPerSecond]
      omega
    · rename_i hle
      rw [TimeOfDay.lt_def] at hle
      simp only [Moment.lt_def, Date.at]
      omega

theorem localWindow_eq_none_iff (hd : d < Date.last) : h.localWindow d = none ↔ h.IsEmpty := by
  rw [Option.eq_none_iff_forall_ne_some, ← not_iff_not, ← h.lt_closing_iff d]
  simp only [ne_eq, localWindow_eq_some_iff, not_forall, not_not]
  refine ⟨?_, fun hlt => ⟨_, hd, hlt, rfl⟩⟩
  rintro ⟨w, -, hlt, rfl⟩
  exact hlt

theorem addSeconds_at (hleap : h.NoLeap) (d : Date) :
    (d.at h.opens).addSeconds 86400 = (d.addDays 1).at h.opens := by
  have hopens : ¬ (d.at h.opens).IsLeapSecond := hleap.1
  rw [Moment.addSeconds_of_not_leap hopens, Moment.ext_iff']
  simp only [Date.at, Date.addDays, and_true]
  omega

theorem isWindow_of_localWindow (hleap : h.NoLeap) (hw : h.localWindow d = some w) :
    h.IsWindow d w := by
  obtain ⟨-, hlt, rfl⟩ := localWindow_eq_some_iff.mp hw
  have hstop := closing_le hleap d
  refine ⟨rfl, hlt, ?_, hstop, fun m hm => ⟨?_, ?_⟩, fun next hnext m hm hin => ?_⟩
  · exact hstop.trans_eq (addSeconds_at hleap d).symm
  · exact (Date.date_at d h.opens).symm.trans_le (Moment.date_mono hm.1)
  · exact (Moment.date_mono (hm.2.le.trans hstop)).trans_eq (Date.date_at _ _)
  · obtain ⟨-, -, rfl⟩ := localWindow_eq_some_iff.mp hnext
    exact (hm.2.trans_le hstop).not_ge hin.1

end OpeningHour

namespace OpeningDay

variable {d : OpeningDay}

theorem openWindows_pairwise (d : OpeningDay) :
    d.openWindows.Pairwise fun v w => v.start ≤ w.start := by
  unfold openWindows
  split
  · split
    · exact List.pairwise_singleton _ _
    · exact Span.sortByStart_pairwise _
  · exact .nil

theorem isOpen_iff : d.isOpen = true ↔ ∃ m, ∃ w ∈ d.openWindows, m ∈ w := by
  refine ⟨fun hopen => ?_, fun ⟨_, w, hw, _⟩ => isOpen_of_mem_openWindows hw⟩
  obtain ⟨w, hw⟩ := exists_mem_openWindows hopen
  exact ⟨w.start, w, hw, le_rfl, (date_of_mem_openWindows hw).2.2⟩

end OpeningDay

namespace OpeningHour

/-- On every date but the last one, an hour without leap seconds has no window exactly when it is
empty, and its window lies between the times at which it opens there and on the following date. The
windows of any day are in order and not empty, and the day is open exactly when they hold some local
time. -/
theorem localWindow_withinNextDay :
    (∀ (h : OpeningHour) (d : Date), h.NoLeap → d < Date.last →
      (h.localWindow d = none ↔ h.opens = h.closes ∧ h.closes < .almostMidnight) ∧
      ∀ w, h.localWindow d = some w → h.IsWindow d w) ∧
    ∀ day : OpeningDay,
      (day.openWindows.Pairwise fun v w => v.start ≤ w.start) ∧
      (∀ w ∈ day.openWindows, w.start < w.stop) ∧
      (day.isOpen = true ↔ ∃ m, ∃ w ∈ day.openWindows, m ∈ w) := by
  refine ⟨fun h d hleap hd => ⟨localWindow_eq_none_iff hd, fun w => ?_⟩, fun day => ?_⟩
  · exact isWindow_of_localWindow hleap
  · refine ⟨day.openWindows_pairwise, fun w hw => ?_, OpeningDay.isOpen_iff⟩
    exact (OpeningDay.date_of_mem_openWindows hw).2.2

/-- From half past eleven at night to a second before half past eleven the next evening. -/
def longNight : OpeningHour :=
  ⟨(TimeOfDay.ofClock? 23 30 0 0).getD .midnight, (TimeOfDay.ofClock? 23 29 59 0).getD .midnight⟩

theorem localWindow_withinNextDay_longNight :
    longNight.NoLeap ∧ (⟨20521⟩ : Date) < Date.last ∧
    (∃ w, longNight.localWindow ⟨20521⟩ = some w ∧ longNight.IsWindow ⟨20521⟩ w) ∧
    ∃ m, ∃ w ∈ OpeningDay.nightHours.openWindows, m ∈ w := by
  have hleap : longNight.NoLeap := by decide
  have hd : (⟨20521⟩ : Date) < Date.last := by decide
  obtain ⟨hhours, hdays⟩ := localWindow_withinNextDay
  obtain ⟨hnone, hwindow⟩ := hhours longNight ⟨20521⟩ hleap hd
  obtain ⟨w, hw⟩ := Option.ne_none_iff_exists'.mp (mt hnone.mp (by decide))
  have hopen : OpeningDay.nightHours.isOpen = true := by with_unfolding_all decide
  exact ⟨hleap, hd, ⟨w, hw, hwindow w hw⟩, (hdays _).2.2.mp hopen⟩

end OpeningHour

end Circulation
