import Circulation.Proofs.Period.Move
import Circulation.Proofs.Strategy.Openings

/-!
# The direction of a move

A date in closed time moves back to a closing time, or ahead to the next open hours: to their
beginning, to their end or, with an offset, to a time in between. That a closing at midnight counts
as the second before does not lead behind the beginning of hours that begin at whole seconds, and a
positive offset does not lead behind it as long as the zone's offsets differ by a day at most.
-/

namespace Circulation

open OpeningDay
open Timetable (Upright covered)

/-! ## Positive periods -/

namespace Zone

variable {z : Zone} {a b : Instant}

/-- The zone's offsets differ by a day at most. -/
def WithinDay (z : Zone) : Prop := ∀ a ∈ z.offsets, ∀ b ∈ z.offsets, a - b ≤ 86400

instance (z : Zone) : Decidable z.WithinDay := inferInstanceAs (Decidable (∀ a ∈ z.offsets, _))

/-- An instant that the clock shows a day later or more is no earlier. -/
theorem WithinDay.second_le (h : z.WithinDay)
    (hclock : (z.toLocal a).second + 86400 ≤ (z.toLocal b).second) : a.second ≤ b.second := by
  have hoffsets := h _ (offsetAt_mem_offsets z b.second) _ (offsetAt_mem_offsets z a.second)
  simp only [toLocal] at hclock
  omega

end Zone

namespace Period

variable {p : Period} {z : Zone} {start t : Instant}

/-- A positive period does not lead back. -/
theorem le_plusDate (hz : z.WithinDay) (hpos : 0 < p.duration) (hleap : ¬ start.IsLeapSecond)
    (h : p.plusDate z start = .ok t) : start ≤ t := by
  cases hshort : p.isShortTerm with
  | true =>
    have hlength := Int.mul_pos p.unit.lengthInSeconds_pos hpos
    rw [eq_of_shift_short hshort h, Moment.addSeconds_of_not_leap hleap, Moment.le_def]
    dsimp only
    omega
  | false =>
    obtain ⟨-, hresolve⟩ := resolve_of_shift_long hshort hleap h
    have hnano : t.nano = start.nano := Zone.nano_of_resolve hresolve hleap
    have hdate := Date.lt_def.mp (p.unit.lt_dateAfter (z.localDate start) hpos)
    have hmoved : (z.toLocal start).second + 86400 ≤ (p.localAfter z start p.duration).second := by
      simp only [localAfter, Moment.onDate, Zone.localDate] at hdate ⊢
      omega
    have hclock : (z.toLocal start).second + 86400 ≤ (z.toLocal t).second := by
      rcases Zone.toLocal_of_resolve hresolve with hshown | hshown
      · rwa [hshown]
      · rw [hshown, Zone.second_hourLater]
        omega
    have hsecond := hz.second_le hclock
    rw [Moment.le_def]
    omega

end Period

/-! ## The next open interval -/

namespace Timetable

/-- The first open interval that starts after a moment. -/
structure IsNextOpen (t : Timetable) (m : Instant) (i : Interval) : Prop where
  mem : i ∈ t.intervals
  isOpen : i.isOpen = true
  lt_start : m < i.start
  first : ∀ j ∈ t.intervals, j.isOpen = true → m < j.start → i.start ≤ j.start

end Timetable

namespace Strategy

variable {days : List OpeningDay} {zone : Zone} {t : Timetable} {all : List (Span .utc)}
  {requested due : Instant} {c : Span .utc}

theorem FromWindows.isNextOpen (h : FromWindows t all)
    (hc : Span.IsFirstAfter (Span.union all) requested c) :
    t.IsNextOpen requested (.ofOpen c) := by
  obtain ⟨hcomponent, hlt, hfirst⟩ := hc
  obtain ⟨hmem, hopen⟩ := h.mem_intervals_iff.mpr ⟨c, hcomponent, rfl⟩
  refine ⟨hmem, hopen, hlt, fun j hj hjopen hmj => ?_⟩
  obtain ⟨d, hd, rfl⟩ := h.mem_intervals_iff.mp ⟨hj, hjopen⟩
  exact hfirst d hd hmj

/-! ## Hours that begin at whole seconds -/

theorem FromWindows.nano_start (h : FromWindows t all) (hwhole : ∀ w ∈ all, w.start.nano = 0)
    (hc : Span.IsComponent (Span.union all) c) : c.start.nano = 0 := by
  obtain ⟨⟨w, hw, hstart⟩, -⟩ := Span.ends_of_mem_merge c ((Span.isComponent_iff h.upright).mp hc)
  exact hstart ▸ hwhole w hw

theorem FromWindows.start_le_closing (h : FromWindows t all) (hwhole : ∀ w ∈ all, w.start.nano = 0)
    (hc : Span.IsComponent (Span.union all) c) : c.start ≤ closing t c := by
  rw [closing_eq]
  exact le_dueAtClosing (h.nano_start hwhole hc) hc.start_lt

theorem nano_start_of_wholeSeconds (hwhole : ∀ d ∈ days, d.WholeSeconds)
    (hall : windowsOf {d | d ∈ days} = {w | w ∈ all}) : ∀ w ∈ all, w.start.nano = 0 := by
  intro w hw
  have hwindow : w ∈ windowsOf {d | d ∈ days} := hall ▸ hw
  obtain ⟨d, hd, hspan⟩ := hwindow
  exact ((hwhole d hd).span_whole hspan).1

/-- An opening with a positive offset or none stays between the beginning of the hours and the time
at which they are due. -/
theorem openingWithOffset_bounds {offset : Option Period} (hz : t.zone.WithinDay)
    (hpos : ∀ p ∈ offset, 0 < p.duration) (hwhole : c.start.nano = 0)
    (hstart : c.start ≤ closing t c) (hdue : openingWithOffset t offset (.ofOpen c) = .ok due) :
    c.start ≤ due ∧ due ≤ closing t c := by
  unfold openingWithOffset at hdue
  split at hdue
  · obtain rfl := Except.ok.inj hdue
    exact ⟨le_rfl, hstart⟩
  · rename_i p hp
    obtain ⟨hmem, -⟩ := Option.filter_eq_some_iff.mp hp
    simp only [Result.bind_eq_ok_iff, Result.pure_eq_ok_iff] at hdue
    obtain ⟨shifted, hshifted, rfl⟩ := hdue
    have hle := Period.le_plusDate hz (hpos p hmem) (Moment.not_leap_of_nano hwhole) hshifted
    exact ⟨le_min hle hstart, min_le_right _ _⟩

/-- Whatever comes of a date in closed time lies in the direction in which the strategy moves: no
later than requested, or no earlier than the next open hours begin. What is due at their beginning,
with a positive offset or without one, is due by the time they close. -/
theorem dueDate_movesInDirection (hz : zone.WithinDay) (ht : Timetable.ofDays days zone = .ok t)
    (hup : Upright days) (hwhole : ∀ d ∈ days, d.WholeSeconds) {i : Interval}
    (hi : i ∈ t.intervals) (hclosed : i.isOpen = false) (hrequested : requested ∈ i.toSpan) :
    (∀ due, endOfPreviousOpenDay.dueDate t requested = .ok due → due ≤ requested) ∧
    (∀ due, endOfNextOpenDay.dueDate t requested = .ok due →
      ∃ next, t.IsNextOpen requested next ∧ next.start ≤ due ∧ requested < due) ∧
    ∀ offset : Option Period, (∀ p ∈ offset, 0 < p.duration) →
      ∀ due, (beginningOfNextOpenHours offset).dueDate t requested = .ok due →
        ∃ next, t.IsNextOpen requested next ∧ next.start ≤ due ∧ due ≤ t.closingTime next := by
  obtain ⟨all, hall, rfl, hfrom⟩ := exists_fromWindows ht hup
  have hstarts := nano_start_of_wholeSeconds hwhole hall
  have hcovered : requested ∈ covered t.intervals := ⟨i, hi, hrequested⟩
  have hout := hfrom.notMem_of_closed hi hclosed hrequested
  have hmoves := hfrom.movesToComponents requested
  refine ⟨fun due hdue => ?_, fun due hdue => ?_, fun offset hpos due hdue => ?_⟩
  · obtain ⟨c, ⟨-, hle, -⟩, rfl⟩ :=
      (hmoves.endOfPreviousOpenDay hcovered hout).exists_of_ok hdue
    exact (dueAtClosing_le t.zone c.stop).trans hle
  · obtain ⟨c, ⟨hc, first, hfirst, hle, -⟩, rfl⟩ :=
      (hmoves.endOfNextOpenDay hcovered hout).exists_of_ok hdue
    have hdue' : first.start ≤ closing t c := hle.trans (hfrom.start_le_closing hstarts hc)
    exact ⟨.ofOpen first, hfrom.isNextOpen hfirst, hdue', hfirst.2.1.trans_le hdue'⟩
  · obtain ⟨o, hfound, heq⟩ := hfrom.exists_beginningOfNextOpenHours_eq hcovered hout offset
    rw [heq] at hdue
    cases o with
    | none => cases hdue
    | some c =>
      have hc := (hfound c).mpr rfl
      exact ⟨.ofOpen c, hfrom.isNextOpen hc, openingWithOffset_bounds hz hpos
        (hfrom.nano_start hstarts hc.1) (hfrom.start_le_closing hstarts hc.1) hdue⟩

theorem lateOpening_wholeSeconds : ∀ d ∈ Timetable.lateOpening, d.WholeSeconds := by
  simp only [Timetable.lateOpening, List.forall_mem_cons]
  refine ⟨?_, ?_, ?_, List.forall_mem_nil _⟩ <;> exact wholeSeconds_withHours (by decide)

/-- A day after the hours begin is too late, and so the loan is due when they end. -/
theorem dueDate_movesInDirection_lateOpening :
    let before : Instant := .ofSecond 1774700000
    let after : Instant := .ofSecond 1774800000
    let close : Instant := .ofSecond 1774746000
    let opening := beginningOfNextOpenHours (some ⟨1, .days⟩)
    Zone.london.WithinDay ∧ Upright Timetable.lateOpening ∧
    (∀ d ∈ Timetable.lateOpening, d.WholeSeconds) ∧
    ∃ t, Timetable.ofDays Timetable.lateOpening Zone.london = .ok t ∧
      (endOfPreviousOpenDay.dueDate t after = .ok close ∧ close ≤ after) ∧
      (endOfNextOpenDay.dueDate t before = .ok close ∧ before < close) ∧
      ∃ next, opening.dueDate t before = .ok close ∧ t.IsNextOpen before next ∧
        next.start ≤ close ∧ close ≤ t.closingTime next := by
  intro before after close opening
  have hz : Zone.london.WithinDay := by decide
  have hafter : after ∈ (Interval.ofClosed close (.ofSecond 1774825200)).toSpan := by decide
  have hbefore : before ∈
      (Interval.ofClosed (.ofSecond 1774656000) (.ofSecond 1774722600)).toSpan := by decide
  obtain ⟨hprevious, -⟩ := dueDate_movesInDirection hz Timetable.ofDays_lateOpening
    Timetable.lateOpening_upright lateOpening_wholeSeconds (.tail _ (.tail _ (.head _))) rfl hafter
  obtain ⟨-, hnext, hopening⟩ := dueDate_movesInDirection hz Timetable.ofDays_lateOpening
    Timetable.lateOpening_upright lateOpening_wholeSeconds (.head _) rfl hbefore
  have hback : endOfPreviousOpenDay.dueDate Timetable.lateTimetable after = .ok close := by
    with_unfolding_all decide
  have hahead : endOfNextOpenDay.dueDate Timetable.lateTimetable before = .ok close := by
    with_unfolding_all decide
  have hdue : opening.dueDate Timetable.lateTimetable before = .ok close := by
    with_unfolding_all decide
  obtain ⟨-, -, -, hlater⟩ := hnext close hahead
  obtain ⟨next, hfirst, hbounds⟩ := hopening (some ⟨1, .days⟩) (by decide) close hdue
  exact ⟨hz, Timetable.lateOpening_upright, lateOpening_wholeSeconds, _,
    Timetable.ofDays_lateOpening, ⟨hback, hprevious close hback⟩, ⟨hahead, hlater⟩, next, hdue,
    hfirst, hbounds⟩

end Strategy

end Circulation
