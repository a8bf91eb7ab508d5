import Circulation.Proofs.Timetable.Coverage
import Circulation.Proofs.Zone.Skipped

/-!
# Lines without a break

The two ends of an opening window resolve apart from each other. The span of instants between them
is empty or reversed only where the clock passed over the start of the window, which then stands for
a later time. The timetable of any opening days is a line without a break, open and closed in turn,
but with such a span among them the line goes back in time and intervals overlap.
-/

namespace Circulation

namespace OpeningDay

variable {z : Zone} {d : OpeningDay} {w : Span .wall} {s : Span .utc}

/-- The span between the instants that the ends of a local window resolve to. -/
structure IsResolved (z : Zone) (w : Span .wall) (s : Span .utc) : Prop where
  window_lt : w.start < w.stop
  start : z.resolve w.start = .ok s.start
  stop : z.resolve w.stop = .ok s.stop
  /-- There is time in the span just where before its stop the clock shows the start of the window,
  or the time an hour later if it never shows that. -/
  lt_iff : s.start < s.stop ↔ (∃ u ∈ z.shownAt w.start, u < s.stop) ∨
    z.shownAt w.start = ∅ ∧ ∃ u ∈ z.shownAt (Zone.hourLater w.start), u < s.stop
  lt_or_passesOver : s.start < s.stop ∨ z.PassesOver w.start s.stop

theorem isResolved_of_mem (hw : w ∈ d.openWindows) (hs : resolveWindow z w = .ok s) :
    IsResolved z w s := by
  obtain ⟨-, -, hlt⟩ := date_of_mem_openWindows hw
  unfold resolveWindow at hs
  simp only [Result.bind_eq_ok_iff, Result.pure_eq_ok_iff] at hs
  obtain ⟨start, hstart, stop, hstop, rfl⟩ := hs
  exact ⟨hlt, hstart, hstop, Zone.resolve_lt_iff hstart,
    Zone.resolve_lt_or_passesOver hlt hstart hstop⟩

/-- The open windows resolve one by one, in their order. -/
theorem forall₂_isResolved {spans : List (Span .utc)} (h : d.openSpans = .ok spans) :
    List.Forall₂ (IsResolved d.zone) d.openWindows spans := by
  have hsteps := Result.forall₂_of_mapM_eq_ok h
  have hmem : List.Forall₂ (fun w s => w ∈ d.openWindows ∧ resolveWindow d.zone w = .ok s)
      d.openWindows spans := (List.forall₂_and_left _ _).mpr ⟨fun w hw => hw, hsteps⟩
  exact hmem.imp fun w s hstep => isResolved_of_mem hstep.1 hstep.2

end OpeningDay

namespace Timetable

open OpeningDay

variable {days : List OpeningDay} {zone : Zone} {t : Timetable}

/-- The clock of no day passes over the start of a window by the time at which the window stops. -/
def NonePassedOver (days : List OpeningDay) : Prop :=
  ∀ d ∈ days, ∀ w ∈ d.openWindows, ∀ stop, d.zone.resolve w.stop = .ok stop →
    ¬ d.zone.PassesOver w.start stop

theorem upright_of_nonePassedOver (h : NonePassedOver days) : Upright days := by
  rintro s ⟨d, hd, spans, hspans, hs⟩
  obtain ⟨w, hw, hresolve⟩ := (Result.mem_of_mapM_eq_ok hspans).mp hs
  have hresolved := isResolved_of_mem hw hresolve
  exact hresolved.lt_or_passesOver.resolve_right (h d hd w hw s.stop hresolved.stop)

/-- The timetable of any days fills a stretch that begins no later than their open time. -/
theorem exists_intervals_eq_fill (ht : ofDays days zone = .ok t) :
    ∃ spans cursor finish, Span.Apart spans ∧ (∀ s ∈ spans.head?, cursor ≤ s.start) ∧
      t.intervals = fill cursor finish spans := by
  cases hrange : dateRange days with
  | none =>
    have hempty : t = empty zone := by
      unfold ofDays at ht
      rw [hrange] at ht
      exact (Except.ok.inj ht).symm
    refine ⟨[], .ofSecond 0, .ofSecond 0, .nil, by simp, ?_⟩
    rw [hempty]
    rfl
  | some range =>
    obtain ⟨spans, start, stop, hspans, -, -, rfl⟩ := (ofDays_eq_ok_iff hrange).mp ht
    refine ⟨spans, _, _, apart_of_openTime hspans, fun s hs => ?_, rfl⟩
    have hhead : spans.head? = some s := hs
    unfold frame
    rw [hhead]
    exact min_le_right _ _

theorem isChain_of_ofDays (ht : ofDays days zone = .ok t) :
    t.intervals.IsChain Interval.Meets := by
  obtain ⟨spans, cursor, finish, hapart, hle, hfill⟩ := exists_intervals_eq_fill ht
  rw [hfill]
  exact isChain_fill hapart hle

/-- Only open intervals can be empty or reversed. -/
theorem tiled_iff_of_ofDays (ht : ofDays days zone = .ok t) :
    Tiled t.intervals ↔ ∀ i ∈ t.intervals, i.isOpen = true → i.start < i.stop := by
  refine ⟨fun htiled i hi _ => htiled.start_lt i hi, fun hopen => ⟨fun i hi => ?_, ?_⟩⟩
  · by_cases hi' : i.isOpen = true
    · exact hopen i hi hi'
    · obtain ⟨spans, cursor, finish, -, -, hfill⟩ := exists_intervals_eq_fill ht
      rw [hfill] at hi
      rcases mem_fill_cases hi with ⟨s, -, rfl⟩ | ⟨-, hlt⟩
      · exact absurd rfl hi'
      · exact hlt
  · exact isChain_of_ofDays ht

theorem tiled_of_upright (ht : ofDays days zone = .ok t) (hup : Upright days) :
    Tiled t.intervals := by
  obtain ⟨spans, range, -, hfits, rfl, -⟩ := exists_fill_of_ofDays ht hup
  exact hfits.tiled_fill

/-- The span of a resolved window is not empty or reversed unless the clock passes over the start
of the window. The timetable of any days is a line without a break, open and closed in turn, and its
intervals do not overlap if all the open ones have time in them, as they do where no start is passed
over. -/
theorem ofDays_unbroken (days : List OpeningDay) (zone : Zone) :
    (∀ d ∈ days, ∀ spans, d.openSpans = .ok spans →
      List.Forall₂ (IsResolved d.zone) d.openWindows spans) ∧
    ∀ t, ofDays days zone = .ok t →
      t.intervals.IsChain Interval.Meets ∧
      (Tiled t.intervals ↔ ∀ i ∈ t.intervals, i.isOpen = true → i.start < i.stop) ∧
      (NonePassedOver days → Tiled t.intervals) := by
  refine ⟨fun d _ spans hspans => forall₂_isResolved hspans, fun t ht => ?_⟩
  exact ⟨isChain_of_ofDays ht, tiled_iff_of_ofDays ht,
    fun hnone => tiled_of_upright ht (upright_of_nonePassedOver hnone)⟩

/-- Day hours on 4 November 2018 in São Paulo, where the clock is set forward from midnight to
one. -/
def springDay : OpeningDay :=
  let clock hour minute := (TimeOfDay.ofClock? hour minute 0 0).getD .midnight
  .withHours ⟨17839⟩ Zone.saoPaulo [⟨clock 9 0, clock 17 0⟩]

/-- Hours on the same date from half past midnight to a quarter past one. -/
def springNight : OpeningDay :=
  let clock hour minute := (TimeOfDay.ofClock? hour minute 0 0).getD .midnight
  .withHours ⟨17839⟩ Zone.saoPaulo [⟨clock 0 30, clock 1 15⟩]

theorem openSpans_springDay : springDay.openSpans = .ok
    [⟨.ofSecond 1541329200, .ofSecond 1541358000⟩] := by
  decide +kernel

theorem openSpans_springNight : springNight.openSpans = .ok
    [⟨.ofSecond 1541302200, .ofSecond 1541301300⟩] := by
  decide +kernel

theorem ofDays_springNight : ofDays [springNight] Zone.saoPaulo = .ok
    ⟨[.ofClosed (.ofSecond 1541300400) (.ofSecond 1541302200),
      .ofOpen ⟨.ofSecond 1541302200, .ofSecond 1541301300⟩,
      .ofClosed (.ofSecond 1541301300) (.ofSecond 1541383200)], Zone.saoPaulo⟩ := by
  decide +kernel

theorem nonePassedOver_springDay : NonePassedOver [springDay] := by
  have hwindows : springDay.openWindows =
      [⟨⟨1541322000, 0, by decide⟩, ⟨1541350800, 0, by decide⟩⟩] := by decide +kernel
  intro d hd w hw stop _
  obtain rfl := List.mem_singleton.mp hd
  rw [hwindows] at hw
  obtain rfl := List.mem_singleton.mp hw
  exact Zone.not_passesOver (by decide +kernel) (by decide +kernel)

theorem ofDays_unbroken_spring :
    (∃ spans, springNight.openSpans = .ok spans ∧
      List.Forall₂ (IsResolved Zone.saoPaulo) springNight.openWindows spans) ∧
    (∃ t, ofDays [springNight] Zone.saoPaulo = .ok t ∧ t.intervals.IsChain Interval.Meets ∧
      ¬ Tiled t.intervals) ∧
    NonePassedOver [springDay] ∧
    ∀ t, ofDays [springDay] Zone.saoPaulo = .ok t → Tiled t.intervals := by
  obtain ⟨hresolved, htimetable⟩ := ofDays_unbroken [springNight] Zone.saoPaulo
  obtain ⟨hchain, htiled, -⟩ := htimetable _ ofDays_springNight
  refine ⟨⟨_, openSpans_springNight, hresolved _ List.mem_cons_self _ openSpans_springNight⟩,
    ⟨_, ofDays_springNight, hchain, fun h => ?_⟩, nonePassedOver_springDay, fun t ht => ?_⟩
  · have hlt := htiled.mp h (.ofOpen ⟨.ofSecond 1541302200, .ofSecond 1541301300⟩) (by decide) rfl
    exact absurd hlt (by decide)
  · obtain ⟨-, htimetable⟩ := ofDays_unbroken [springDay] Zone.saoPaulo
    exact (htimetable t ht).2.2 nonePassedOver_springDay

/-- Hours that begin in the hour left out and stop within the hour after come out reversed, and in
the timetable two closed intervals overlap there. -/
theorem ofDays_springNight_overlaps :
    (∃ spans, springNight.openSpans = .ok spans ∧ ∃ s ∈ spans, s.stop < s.start) ∧
    ∃ t, ofDays [springNight] Zone.saoPaulo = .ok t ∧ ∃ i ∈ t.intervals, ∃ j ∈ t.intervals,
      i ≠ j ∧ ∃ m, m ∈ i.toSpan ∧ m ∈ j.toSpan := by
  refine ⟨⟨_, openSpans_springNight, _, List.mem_cons_self, by decide⟩, _, ofDays_springNight,
    .ofClosed (.ofSecond 1541300400) (.ofSecond 1541302200), by decide,
    .ofClosed (.ofSecond 1541301300) (.ofSecond 1541383200), by decide, by decide,
    .ofSecond 1541301600, by decide, by decide⟩

end Timetable

end Circulation
