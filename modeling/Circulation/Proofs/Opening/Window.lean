import Circulation.Opening
import Circulation.Proofs.Result
import Circulation.Proofs.Zone.Fixed
import Mathlib.Data.Set.Basic

/-!
# Open windows as instants

`OpeningDay.windowsOf` are the resolved windows of some days, and `OpeningDay.openMoments` the
instants in them. A local window begins on the date of its day and stops before the end of the
next, so that in a zone of one offset its resolved span does the same.
-/

namespace Circulation

/-! ## Local windows -/

namespace OpeningHour

variable {h : OpeningHour} {d : Date} {w : Span .wall}

theorem date_closing_le (h : OpeningHour) (d : Date) :
    (h.closing d ((d.addDays 1).at .midnight)).date ≤ d.addDays 1 := by
  unfold closing
  split
  · exact (Date.date_at _ _).le
  · rename_i hlate
    have hcloses : h.closes.second < 86340 := by
      simp only [TimeOfDay.le_def, TimeOfDay.almostMidnight] at hlate
      omega
    have hnano := h.closes.nano_lt
    split
    · simp only [Date.le_def, Moment.date, Date.at, Date.addDays, TimeOfDay.midnight,
        nanosPerSecond]
      omega
    · rw [Date.date_at, Date.le_def]
      simp only [Date.addDays]
      omega

/-- A window stops at midnight or before the last minute of a day. -/
theorem second_closing_le (h : OpeningHour) (d : Date) :
    (h.closing d ((d.addDays 1).at .midnight)).second % 86400 ≤ 86340 := by
  unfold closing
  split
  · simp only [Date.at, TimeOfDay.midnight]
    omega
  · rename_i hlate
    have hcloses : h.closes.second < 86340 := by
      simp only [TimeOfDay.le_def, TimeOfDay.almostMidnight] at hlate
      omega
    have hnano := h.closes.nano_lt
    split
    · simp only [Date.at, TimeOfDay.midnight, nanosPerSecond]
      omega
    · simp only [Date.at]
      omega

/-- The fraction of a closing is none, the one of the closing time or what is left of it past a leap
second. -/
theorem nano_closing {p : Nat → Prop} (hzero : p 0) (hmod : ∀ n, p n → p (n % nanosPerSecond))
    (hcloses : p h.closes.nano) : p (h.closing d ((d.addDays 1).at .midnight)).nano := by
  unfold closing
  split
  · exact hzero
  · split
    · exact hmod _ hcloses
    · exact hcloses

theorem localWindow_eq_some_iff : h.localWindow d = some w ↔ d < Date.last ∧
    w.start < w.stop ∧ w = ⟨d.at h.opens, h.closing d ((d.addDays 1).at .midnight)⟩ := by
  unfold localWindow Date.next?
  by_cases hd : d < Date.last
  · rw [if_pos hd, Option.bind_eq_bind, Option.bind_some]
    by_cases hlt : d.at h.opens < h.closing d ((d.addDays 1).at .midnight)
    · rw [if_pos hlt, Option.some.injEq]
      refine ⟨?_, ?_⟩
      · rintro rfl
        exact ⟨hd, hlt, rfl⟩
      · rintro ⟨-, -, rfl⟩
        rfl
    · rw [if_neg hlt]
      refine ⟨?_, ?_⟩
      · rintro ⟨⟩
      · rintro ⟨-, hlt', rfl⟩
        exact absurd hlt' hlt
  · rw [if_neg hd, Option.bind_eq_bind, Option.bind_none]
    refine ⟨?_, ?_⟩
    · rintro ⟨⟩
    · rintro ⟨hd', -⟩
      exact absurd hd' hd

end OpeningHour

namespace OpeningDay

variable {d : OpeningDay} {w : Span .wall} {s : Span .utc} {z : Zone} {offset : Int}

theorem mem_openWindows_iff : w ∈ d.openWindows ↔ d.opens = true ∧
    if d.allDay then w = ⟨d.date.at .midnight, (d.date.addDays 1).at .midnight⟩
    else ∃ h ∈ d.hours, h.localWindow d.date = some w := by
  unfold openWindows
  split
  · rename_i hopens
    split
    · simp [hopens]
    · simp [hopens, Span.sortByStart, List.mem_mergeSort]
  · rename_i hopens
    simp [hopens]

/-- A window begins on the date of its day and stops by the end of the next. -/
theorem date_of_mem_openWindows (hw : w ∈ d.openWindows) : w.start.date = d.date ∧
    w.stop.date ≤ d.date.addDays 1 ∧ w.start < w.stop := by
  obtain ⟨-, hw⟩ := mem_openWindows_iff.mp hw
  split at hw
  · rw [hw]
    refine ⟨Date.date_at _ _, (Date.date_at _ _).le, Moment.lt_of_date_lt ?_⟩
    rw [Date.date_at, Date.date_at, Date.lt_def]
    simp only [Date.addDays]
    omega
  · obtain ⟨h, -, hh⟩ := hw
    obtain ⟨-, hlt, rfl⟩ := OpeningHour.localWindow_eq_some_iff.mp hh
    exact ⟨Date.date_at _ _, h.date_closing_le d.date, hlt⟩

theorem second_stop_le (hw : w ∈ d.openWindows) : w.stop.second % 86400 ≤ 86340 := by
  obtain ⟨-, hw⟩ := mem_openWindows_iff.mp hw
  split at hw
  · rw [hw]
    simp only [Date.at, TimeOfDay.midnight]
    omega
  · obtain ⟨h, -, hh⟩ := hw
    obtain ⟨-, -, rfl⟩ := OpeningHour.localWindow_eq_some_iff.mp hh
    exact h.second_closing_le d.date

theorem isOpen_of_mem_openWindows (hw : w ∈ d.openWindows) : d.isOpen = true := by
  obtain ⟨hopens, -⟩ := mem_openWindows_iff.mp hw
  unfold isOpen
  rw [hopens, Bool.true_and, Bool.or_eq_true]
  cases hwindows : d.openWindows with
  | nil => simp [hwindows] at hw
  | cons v rest => exact .inr rfl

@[simp] theorem isOpen_closed (date : Date) (zone : Zone) : (closed date zone).isOpen = false := rfl

/-- A day that is not open has no windows. -/
theorem openWindows_eq_nil (h : d.isOpen = false) : d.openWindows = [] := by
  rw [List.eq_nil_iff_forall_not_mem]
  intro w hw
  rw [isOpen_of_mem_openWindows hw] at h
  cases h

theorem exists_mem_openWindows (h : d.isOpen = true) : ∃ w, w ∈ d.openWindows := by
  refine List.exists_mem_of_ne_nil _ fun hnil => ?_
  unfold isOpen at h
  unfold openWindows at h hnil
  cases hopens : d.opens <;> cases hall : d.allDay <;> simp_all

/-! ## Resolved windows -/

/-- The span is one of the day's open windows, resolved in the day's zone. -/
def HasSpan (d : OpeningDay) (w : Span .utc) : Prop := ∃ spans, d.openSpans = .ok spans ∧ w ∈ spans

/-- The resolved windows of some days. -/
def windowsOf (days : Set OpeningDay) : Set (Span .utc) := {w | ∃ d ∈ days, d.HasSpan w}

/-- The instants at which some of the days is open. -/
def openMoments (days : Set OpeningDay) : Set Instant := {m | ∃ w ∈ windowsOf days, m ∈ w}

theorem mem_windowsOf {days : Set OpeningDay} {w : Span .utc} :
    w ∈ windowsOf days ↔ ∃ d ∈ days, d.HasSpan w := Iff.rfl

theorem mem_openMoments {days : Set OpeningDay} {m : Instant} :
    m ∈ openMoments days ↔ ∃ w ∈ windowsOf days, m ∈ w := Iff.rfl

theorem HasSpan.exists_window (h : d.HasSpan s) : ∃ w ∈ d.openWindows,
    d.zone.resolve w.start = .ok s.start ∧ d.zone.resolve w.stop = .ok s.stop := by
  obtain ⟨spans, hspans, hs⟩ := h
  obtain ⟨w, hw, hresolve⟩ := (Result.mem_of_mapM_eq_ok hspans).mp hs
  unfold resolveWindow at hresolve
  simp only [Result.bind_eq_ok_iff, Result.pure_eq_ok_iff] at hresolve
  obtain ⟨start, hstart, stop, hstop, rfl⟩ := hresolve
  exact ⟨w, hw, hstart, hstop⟩

theorem HasSpan.isOpen (h : d.HasSpan s) : d.isOpen = true := by
  obtain ⟨v, hv, -⟩ := h.exists_window
  exact isOpen_of_mem_openWindows hv

/-- What holds of the fractions of the hours holds of those of the windows. -/
theorem nano_of_mem_openWindows {p : Nat → Prop} (hzero : p 0)
    (hmod : ∀ n, p n → p (n % nanosPerSecond))
    (hhours : ∀ h ∈ d.hours, p h.opens.nano ∧ p h.closes.nano) (hw : w ∈ d.openWindows) :
    p w.start.nano ∧ p w.stop.nano := by
  obtain ⟨-, hw⟩ := mem_openWindows_iff.mp hw
  split at hw
  · rw [hw]
    exact ⟨hzero, hzero⟩
  · obtain ⟨hour, hhour, heq⟩ := hw
    obtain ⟨-, -, rfl⟩ := OpeningHour.localWindow_eq_some_iff.mp heq
    obtain ⟨hopens, hcloses⟩ := hhours hour hhour
    exact ⟨hopens, OpeningHour.nano_closing hzero hmod hcloses⟩

/-- No hours of the day begin or end in a leap second. -/
def NoLeap (d : OpeningDay) : Prop :=
  ∀ h ∈ d.hours, ¬ nanosPerSecond ≤ h.opens.nano ∧ ¬ nanosPerSecond ≤ h.closes.nano

instance (d : OpeningDay) : Decidable d.NoLeap := inferInstanceAs (Decidable (∀ h ∈ d.hours, _ ∧ _))

theorem noLeap_withHours {date : Date} {hours : List OpeningHour}
    (h : ∀ hour ∈ hours, ¬ nanosPerSecond ≤ hour.opens.nano ∧ ¬ nanosPerSecond ≤ hour.closes.nano) :
    (withHours date z hours).NoLeap :=
  fun hour hmem => h hour (List.mem_mergeSort.mp hmem)

theorem NoLeap.window_not_leap (h : d.NoLeap) (hw : w ∈ d.openWindows) :
    ¬ w.start.IsLeapSecond ∧ ¬ w.stop.IsLeapSecond :=
  nano_of_mem_openWindows (p := fun n => ¬ nanosPerSecond ≤ n) (by decide)
    (fun n _ => (Nat.mod_lt n (by decide)).not_ge) h hw

/-- Resolving windows, in whatever zone, makes no leap seconds. -/
theorem NoLeap.span_not_leap (h : d.NoLeap) (hs : d.HasSpan s) :
    ¬ s.start.IsLeapSecond ∧ ¬ s.stop.IsLeapSecond := by
  obtain ⟨w, hw, hstart, hstop⟩ := hs.exists_window
  obtain ⟨hwstart, hwstop⟩ := h.window_not_leap hw
  exact ⟨Zone.not_leap_of_resolve hstart hwstart, Zone.not_leap_of_resolve hstop hwstop⟩

/-- The hours of the day begin and end at whole seconds. -/
def WholeSeconds (d : OpeningDay) : Prop := ∀ h ∈ d.hours, h.opens.nano = 0 ∧ h.closes.nano = 0

theorem wholeSeconds_withHours {date : Date} {hours : List OpeningHour}
    (h : ∀ hour ∈ hours, hour.opens.nano = 0 ∧ hour.closes.nano = 0) :
    (withHours date z hours).WholeSeconds :=
  fun hour hmem => h hour (List.mem_mergeSort.mp hmem)

theorem WholeSeconds.noLeap (h : d.WholeSeconds) : d.NoLeap := by
  intro hour hhour
  obtain ⟨hopens, hcloses⟩ := h hour hhour
  rw [hopens, hcloses]
  decide

/-- So do the resolved windows, in whatever zone. -/
theorem WholeSeconds.span_whole (h : d.WholeSeconds) (hs : d.HasSpan s) :
    s.start.nano = 0 ∧ s.stop.nano = 0 := by
  obtain ⟨w, hw, hstart, hstop⟩ := hs.exists_window
  obtain ⟨hleapStart, hleapStop⟩ := h.noLeap.window_not_leap hw
  rw [Zone.nano_of_resolve hstart hleapStart, Zone.nano_of_resolve hstop hleapStop]
  exact nano_of_mem_openWindows (p := fun n => n = 0) rfl (fun n hn => by rw [hn]; rfl) h hw

/-- A day of the zone, away from the first and the last date and without leap seconds. -/
structure IsPlain (z : Zone) (d : OpeningDay) : Prop where
  zone_eq : d.zone = z
  first_lt : Date.first < d.date
  lt_last : d.date.addDays 1 < Date.last
  opens : ∀ h ∈ d.hours, ¬ nanosPerSecond ≤ h.opens.nano
  closes : ∀ h ∈ d.hours, ¬ nanosPerSecond ≤ h.closes.nano

theorem IsPlain.noLeap (h : d.IsPlain z) : d.NoLeap :=
  fun hour hhour => ⟨h.opens hour hhour, h.closes hour hhour⟩

/-! ## Windows in a zone of one offset -/

/-- A day of the zone, away from the first and the last date. -/
structure IsInner (z : Zone) (d : OpeningDay) : Prop where
  zone_eq : d.zone = z
  first_lt : Date.first < d.date
  lt_last : d.date.addDays 1 < Date.last

theorem IsPlain.isInner (h : d.IsPlain z) : d.IsInner z := ⟨h.zone_eq, h.first_lt, h.lt_last⟩

theorem IsInner.date_lt_last (h : d.IsInner z) : d.date < Date.last := by
  have hnext := h.lt_last
  rw [Date.lt_def] at hnext ⊢
  simp only [Date.addDays] at hnext
  omega

theorem IsInner.resolve_window (h : d.IsInner z) (hz : z.IsFixed offset)
    (hw : w ∈ d.openWindows) : z.resolve w.start = .ok (Zone.instantAt w.start offset) ∧
      z.resolve w.stop = .ok (Zone.instantAt w.stop offset) := by
  obtain ⟨hstart, hstop, hlt⟩ := date_of_mem_openWindows hw
  have hle : d.date ≤ w.stop.date := hstart ▸ Moment.date_mono hlt.le
  refine ⟨hz.resolve_of_date ?_ ?_, hz.resolve_of_date ?_ ?_⟩
  · exact hstart ▸ h.first_lt
  · exact hstart ▸ h.date_lt_last
  · exact h.first_lt.trans_le hle
  · exact hstop.trans_lt h.lt_last

theorem IsInner.exists_openSpans (h : d.IsInner z) (hz : z.IsFixed offset) :
    ∃ spans, d.openSpans = .ok spans := by
  refine Result.exists_mapM_eq_ok fun w hw => ?_
  obtain ⟨hstart, hstop⟩ := h.resolve_window hz hw
  refine ⟨⟨Zone.instantAt w.start offset, Zone.instantAt w.stop offset⟩, ?_⟩
  unfold resolveWindow
  rw [h.zone_eq, hstart, hstop]
  rfl

theorem IsInner.exists_hasSpan (h : d.IsInner z) (hz : z.IsFixed offset) (hopen : d.isOpen = true) :
    ∃ s, d.HasSpan s := by
  obtain ⟨spans, hspans⟩ := h.exists_openSpans hz
  obtain ⟨v, hv⟩ := exists_mem_openWindows hopen
  obtain ⟨s, hs, -⟩ := Result.exists_of_mapM_eq_ok hspans hv
  exact ⟨s, spans, hspans, hs⟩

/-- After the first date, the clock shows a resolved window as the local window that it comes
from. -/
theorem HasSpan.toLocal_mem (hs : d.HasSpan s) (hz : z.IsFixed offset) (hzone : d.zone = z)
    (hfirst : Date.first < d.date) :
    (⟨z.toLocal s.start, z.toLocal s.stop⟩ : Span .wall) ∈ d.openWindows := by
  obtain ⟨w, hw, hstart, hstop⟩ := hs.exists_window
  rw [hzone] at hstart hstop
  obtain ⟨hdate, -, hlt⟩ := date_of_mem_openWindows hw
  have hearly : ∀ l : LocalTime, d.date ≤ l.date → 86400 * Date.first.day ≤ l.second - offset := by
    intro l hl
    have hupper := hz.upper
    have hl' := hfirst.trans_le hl
    rw [Date.lt_def] at hl'
    simp only [Moment.date] at hl'
    omega
  rwa [hz.toLocal_of_resolve (hearly _ hdate.ge) hstart,
    hz.toLocal_of_resolve (hearly _ (hdate ▸ Moment.date_mono hlt.le)) hstop]

/-- The windows of the first date are over by the end of the date after it. -/
theorem HasSpan.localDate_early (hs : d.HasSpan s) (hz : z.IsFixed offset) (hzone : d.zone = z)
    (hfirst : d.date ≤ Date.first) : z.localDate s.start ≤ Date.first.addDays 1 ∧
      z.localDate s.stop ≤ Date.first.addDays 1 := by
  obtain ⟨w, hw, hstart, hstop⟩ := hs.exists_window
  rw [hzone] at hstart hstop
  obtain ⟨hdate, hdate', -⟩ := date_of_mem_openWindows hw
  refine ⟨Zone.localDate_of_resolve_early (hdate.trans_le hfirst) hstart, ?_⟩
  rcases le_or_gt w.stop.date Date.first with hle | hlt
  · exact Zone.localDate_of_resolve_early hle hstop
  · have hearly : 86400 * Date.first.day ≤ w.stop.second - offset := by
      have hupper := hz.upper
      rw [Date.lt_def] at hlt
      simp only [Moment.date] at hlt
      omega
    rw [Zone.localDate, hz.toLocal_of_resolve hearly hstop]
    refine hdate'.trans ?_
    rw [Date.le_def] at hfirst ⊢
    simp only [Date.addDays]
    omega

theorem HasSpan.localDate_start (hs : d.HasSpan s) (hz : z.IsFixed offset) (hzone : d.zone = z)
    (hfirst : Date.first < d.date) : z.localDate s.start = d.date :=
  (date_of_mem_openWindows (hs.toLocal_mem hz hzone hfirst)).1

theorem HasSpan.start_lt (hs : d.HasSpan s) (hz : z.IsFixed offset) (hzone : d.zone = z)
    (hfirst : Date.first < d.date) : s.start < s.stop :=
  hz.toLocal_lt_iff.mp (date_of_mem_openWindows (hs.toLocal_mem hz hzone hfirst)).2.2

/-- Windows open before any later date, and they are over by then or go on into the next date at
most. -/
theorem HasSpan.localDate_le (hs : d.HasSpan s) (hz : z.IsFixed offset) (hzone : d.zone = z)
    {x : Date} (hx : Date.first.addDays 1 < x) (hlt : d.date < x) :
    z.localDate s.start < x ∧ z.localDate s.stop ≤ x := by
  rcases lt_or_ge Date.first d.date with hfirst | hfirst
  · obtain ⟨hstart, hstop, -⟩ := date_of_mem_openWindows (hs.toLocal_mem hz hzone hfirst)
    refine ⟨(show z.localDate s.start = d.date from hstart).trans_lt hlt, hstop.trans ?_⟩
    rw [Date.lt_def] at hlt
    simp only [Date.le_def, Date.addDays]
    omega
  · obtain ⟨hstart, hstop⟩ := hs.localDate_early hz hzone hfirst
    exact ⟨hstart.trans_lt hx, (hstop.trans_lt hx).le⟩

end OpeningDay

end Circulation
