import Circulation.Proofs.Strategy.Openings
import Circulation.Zone.Named

/-!
# The end of the current hours

What is due at the end of the hours that are current, or else of the next ones, is due after now,
unless those hours close at midnight: then it is due a second before, and now can be in that last
second already.
-/

namespace Circulation

open OpeningDay
open Timetable (Upright covered)

/-- The open hours current at `now` or, in closed time, the next ones. -/
def Span.IsCurrentOrNext (u : Set Instant) (now : Instant) (c : Span .utc) : Prop :=
  (IsComponent u c ∧ now ∈ c) ∨ now ∉ u ∧ IsFirstAfter u now c

theorem Span.IsCurrentOrNext.now_lt {u : Set Instant} {now : Instant} {c : Span .utc}
    (h : IsCurrentOrNext u now c) : now < c.stop := by
  rcases h with ⟨-, hnow⟩ | ⟨-, hc, hnow, -⟩
  · exact hnow.2
  · exact hnow.trans hc.start_lt

namespace Strategy

variable {days : List OpeningDay} {zone : Zone} {t : Timetable} {u : Set Instant}
  {requested now due stop : Instant}

/-- In closed time the strategy finds the current hours or the next ones, if it finds any. -/
theorem MovesToComponents.exists_isCurrentOrNext (h : MovesToComponents t u requested)
    (hcovered : requested ∈ covered t.intervals) (hout : requested ∉ u)
    (hcomponent : now ∈ u → ∃ c, Span.IsComponent u c ∧ now ∈ c)
    (hdue : (endOfCurrentHours now).dueDate t requested = .ok due) :
    ∃ c, Span.IsCurrentOrNext u now c ∧ due = dueAtClosing t.zone c.stop := by
  by_cases hnow : now ∈ u
  · obtain ⟨c, hc, hmem⟩ := hcomponent hnow
    have hresult := h.nowOpen hcovered hout now c hc hmem
    exact ⟨c, .inl ⟨hc, hmem⟩, Except.ok.inj (hdue.symm.trans hresult)⟩
  by_cases hin : now ∈ covered t.intervals
  · obtain ⟨c, hc, heq⟩ := (h.nowClosed hcovered hout now hin hnow).exists_of_ok hdue
    exact ⟨c, .inr ⟨hnow, hc⟩, heq⟩
  · cases hdue.symm.trans (h.nowOutside hcovered hout now hin)

/-- What is due at a closing time ahead is due earlier than now only within the second before
midnight. -/
theorem dueAtClosing_lt_iff (hnow : now < stop) : dueAtClosing zone stop < now ↔
    (zone.toLocal stop).IsMidnight ∧ stop.addSeconds (-1) < now := by
  unfold dueAtClosing
  split
  · rename_i hmidnight
    exact (and_iff_right hmidnight).symm
  · rename_i hother
    exact ⟨fun hlt => absurd hlt hnow.asymm, fun hboth => absurd hboth.1 hother⟩

/-- It is due no earlier than the whole second of now. -/
theorem ofSecond_le_dueAtClosing (hnow : now < stop) :
    .ofSecond now.second ≤ dueAtClosing zone stop := by
  have hwhole : .ofSecond now.second ≤ now := .inr ⟨rfl, Nat.zero_le _⟩
  exact le_dueAtClosing rfl (hwhole.trans_lt hnow)

/-- What the end of the current hours makes of a date in closed time is due at the close of the
hours current at `now` or of the next ones, and not earlier than now except in the last second
before midnight. -/
theorem endOfCurrentHours_lt_now_iff (ht : Timetable.ofDays days zone = .ok t)
    (hup : Upright days) {i : Interval} (hi : i ∈ t.intervals) (hclosed : i.isOpen = false)
    (hrequested : requested ∈ i.toSpan)
    (hdue : (endOfCurrentHours now).dueDate t requested = .ok due) :
    ∃ c, Span.IsCurrentOrNext (openMoments {d | d ∈ days}) now c ∧
      due = dueAtClosing zone c.stop ∧ .ofSecond now.second ≤ due ∧
      (due < now ↔ (zone.toLocal c.stop).IsMidnight ∧ c.stop.addSeconds (-1) < now) := by
  obtain ⟨all, hall, rfl, hfrom⟩ := exists_fromWindows ht hup
  rw [openMoments_eq_union hall]
  obtain ⟨c, hc, rfl⟩ := (hfrom.movesToComponents requested).exists_isCurrentOrNext
    ⟨i, hi, hrequested⟩ (hfrom.notMem_of_closed hi hclosed hrequested)
    (Span.exists_component_of_mem hfrom.upright) hdue
  exact ⟨c, hc, rfl, ofSecond_le_dueAtClosing hc.now_lt, dueAtClosing_lt_iff hc.now_lt⟩

/-- Hours on 16 January 2026 that close at midnight. -/
def januaryEvening : OpeningDay :=
  let clock hour minute := (TimeOfDay.ofClock? hour minute 0 0).getD .midnight
  .withHours ⟨20469⟩ Zone.utc [⟨clock 20 0, clock 23 59⟩]

def januaryTimetable : Timetable :=
  ⟨[.ofClosed (.ofSecond 1768521600) (.ofSecond 1768593600),
    .ofOpen ⟨.ofSecond 1768593600, .ofSecond 1768608000⟩], Zone.utc⟩

theorem ofDays_januaryEvening :
    Timetable.ofDays [januaryEvening] Zone.utc = .ok januaryTimetable := by
  with_unfolding_all decide

theorem januaryEvening_upright : Upright [januaryEvening] := by
  have hspans : [januaryEvening].mapM openSpans =
      .ok [[⟨.ofSecond 1768593600, .ofSecond 1768608000⟩]] := by with_unfolding_all decide
  exact Timetable.upright_of_mapM hspans (by decide)

/-- At 23:59:59 a loan is due just then. -/
theorem endOfCurrentHours_lt_now_iff_lastSecond :
    let noon : Instant := .ofSecond 1768564800
    let now : Instant := .ofSecond 1768607999
    Timetable.ofDays [januaryEvening] Zone.utc = .ok januaryTimetable ∧ Upright [januaryEvening] ∧
    (∃ i ∈ januaryTimetable.intervals, i.isOpen = false ∧ noon ∈ i.toSpan) ∧
    (endOfCurrentHours now).dueDate januaryTimetable noon = .ok now ∧
    ∃ c, Span.IsCurrentOrNext (openMoments {d | d ∈ [januaryEvening]}) now c ∧
      now = dueAtClosing Zone.utc c.stop := by
  intro noon now
  have hnoon : noon ∈ (Interval.ofClosed (.ofSecond 1768521600) (.ofSecond 1768593600)).toSpan := by
    decide
  have hdue : (endOfCurrentHours now).dueDate januaryTimetable noon = .ok now := by
    with_unfolding_all decide
  obtain ⟨c, hc, hclosing, -⟩ := endOfCurrentHours_lt_now_iff ofDays_januaryEvening
    januaryEvening_upright List.mem_cons_self rfl hnoon hdue
  exact ⟨ofDays_januaryEvening, januaryEvening_upright, ⟨_, List.mem_cons_self, rfl, hnoon⟩, hdue,
    c, hc, hclosing⟩

/-- Half a second later it is due half a second ago. -/
theorem endOfCurrentHours_beforeNow :
    let noon : Instant := .ofSecond 1768564800
    let now : Instant := ⟨1768607999, 500000000, by decide⟩
    Timetable.ofDays [januaryEvening] Zone.utc = .ok januaryTimetable ∧ Upright [januaryEvening] ∧
    (∃ i ∈ januaryTimetable.intervals, i.isOpen = false ∧ noon ∈ i.toSpan) ∧
    ∃ due, (endOfCurrentHours now).dueDate januaryTimetable noon = .ok due ∧ ¬ now ≤ due :=
  ⟨ofDays_januaryEvening, januaryEvening_upright, ⟨_, List.mem_cons_self, rfl, by decide⟩,
    .ofSecond 1768607999, by with_unfolding_all decide, by decide⟩

end Strategy

end Circulation
