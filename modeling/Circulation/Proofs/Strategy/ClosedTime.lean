import Circulation.Proofs.Timetable.Coverage
import Circulation.Proofs.Timetable.Nearest
import Circulation.Strategy
import Mathlib.Data.List.TakeWhile

/-!
# Leaving closed time

The strategies that look at opening hours, described without timetable positions. A date in open
time stays where it is, and one in closed time moves to the end or the start of a component of the
open time.
-/

namespace Circulation

open OpeningDay
open Timetable (Fits Tiled Upright covered fill)

/-- The result is the due date of the component sought, and if there is none it is the failure to
find one for the instant. -/
structure Answers (found : Span .utc → Prop) (due : Span .utc → Instant) (instant : Instant)
    (result : Result Instant) : Prop where
  of_found : ∀ c, found c → result = .ok (due c)
  of_missing : (∀ c, ¬ found c) → result = .error (.openPeriodsNotFound instant)

theorem Answers.of_option {found : Span .utc → Prop} {due : Span .utc → Instant}
    {instant : Instant} {result : Result Instant} {o : Option (Span .utc)}
    (h : ∀ c, found c ↔ o = some c) (hsome : ∀ c, o = some c → result = .ok (due c))
    (hnone : o = none → result = .error (.openPeriodsNotFound instant)) :
    Answers found due instant result := by
  refine ⟨fun c hc => hsome c ((h c).mp hc), fun hmissing => hnone ?_⟩
  cases o with
  | none => rfl
  | some c => exact absurd ((h c).mpr rfl) (hmissing c)

theorem Answers.exists_of_ok {found : Span .utc → Prop} {due : Span .utc → Instant}
    {instant x : Instant} {result : Result Instant} (h : Answers found due instant result)
    (hok : result = .ok x) : ∃ c, found c ∧ x = due c := by
  by_cases hfound : ∃ c, found c
  · obtain ⟨c, hc⟩ := hfound
    exact ⟨c, hc, Except.ok.inj (hok.symm.trans (h.of_found c hc))⟩
  · cases hok.symm.trans (h.of_missing fun c hc => hfound ⟨c, hc⟩)

namespace Strategy

variable {t : Timetable} {zone : Zone} {requested now : Instant} {p : Timetable.Position}
  {move : Timetable.Position → Result Instant}

/-! ## Steps -/

theorem locate_eq_error (h : t.position? requested = none) :
    locate t requested = .error (.openPeriodsNotFound requested) := by
  rw [locate, h]

theorem locate_eq_ok (h : t.position? requested = some p) : locate t requested = .ok p := by
  rw [locate, h]

theorem leaveClosedTime_eq_error (h : t.position? requested = none) :
    leaveClosedTime t requested move = .error (.openPeriodsNotFound requested) := by
  unfold leaveClosedTime
  rw [locate_eq_error h]
  rfl

theorem leaveClosedTime_of_open (h : t.position? requested = some p) (hopen : p.here.isOpen) :
    leaveClosedTime t requested move = .ok requested := by
  unfold leaveClosedTime
  rw [locate_eq_ok h, Result.ok_bind, if_pos hopen]
  rfl

theorem leaveClosedTime_of_closed (h : t.position? requested = some p)
    (hclosed : p.here.isOpen = false) : leaveClosedTime t requested move = move p := by
  unfold leaveClosedTime
  rw [locate_eq_ok h, Result.ok_bind, if_neg (by simp [hclosed])]

/-- The strategies that look at opening hours differ in how they leave closed time only. -/
theorem exists_move (s : Strategy) (h : s.requiresCalendar = true) (t : Timetable)
    (requested : Instant) : ∃ move, s.dueDate t requested = leaveClosedTime t requested move := by
  cases s with
  | keepCurrentDate z => cases h
  | keepCurrentDateTime => cases h
  | endOfPreviousOpenDay => exact ⟨_, rfl⟩
  | endOfNextOpenDay => exact ⟨_, rfl⟩
  | beginningOfNextOpenHours offset => exact ⟨_, rfl⟩
  | endOfCurrentHours now => exact ⟨_, rfl⟩

/-- The time at which something due in the component is due. -/
def closing (t : Timetable) (c : Span .utc) : Instant := t.closingTime (.ofOpen c)

theorem closingOf_answers {found : Span .utc → Prop} {instant : Instant} {o : Option (Span .utc)}
    (h : ∀ c, found c ↔ o = some c) :
    Answers found (closing t) instant (closingOf t instant (o.map Interval.ofOpen)) := by
  refine .of_option h ?_ ?_
  · rintro c rfl
    rfl
  · rintro rfl
    rfl

/-! ## The last component of a day -/

theorem lastOfDay?_map_cons (first : Span .utc) (rest : List (Span .utc)) :
    lastOfDay? zone ((first :: rest).map Interval.ofOpen) =
      (first :: rest.takeWhile fun s =>
        zone.localDate s.start = zone.localDate first.start).getLast?.map Interval.ofOpen := by
  rw [List.map_cons, lastOfDay?, List.takeWhile_map, List.getLast?_map, List.getLast?_cons]
  simp only [Option.map_some, Option.getD_map]
  rfl

/-- The components that start on the date of the first one end with the last component of the next
day. -/
theorem exists_lastOfDay? {spans : List (Span .utc)} (zone : Zone) (m : Instant)
    (h : Span.Apart spans) (hn : ∀ s ∈ spans, s.start < s.stop) :
    ∃ o, lastOfDay? zone ((spans.filter fun s => m < s.start).map Interval.ofOpen) =
        o.map Interval.ofOpen ∧
      ∀ c, Span.IsLastOfNextDay zone (Span.union spans) m c ↔ o = some c := by
  cases hlater : spans.filter fun s => m < s.start with
  | nil =>
    refine ⟨none, rfl, fun c => ⟨?_, fun hc => nomatch hc⟩⟩
    rintro ⟨-, first, hfirst, -⟩
    rw [h.isFirstAfter_iff hn, hlater] at hfirst
    cases hfirst
  | cons first rest =>
    let same := rest.takeWhile fun s => zone.localDate s.start = zone.localDate first.start
    let others := rest.dropWhile fun s => zone.localDate s.start = zone.localDate first.start
    have hsplit : (spans.filter fun s => m < s.start) = (first :: same) ++ others := by
      rw [hlater, List.cons_append, List.takeWhile_append_dropWhile]
    have hsame : ∀ s ∈ same, zone.localDate s.start = zone.localDate first.start := fun s hs => by
      simpa using List.mem_takeWhile_imp hs
    have hothers : ∀ s ∈ others.head?, zone.localDate s.start ≠ zone.localDate first.start := by
      intro s hs
      have hnot := List.head?_dropWhile_not
        (fun s : Span .utc => decide (zone.localDate s.start = zone.localDate first.start)) rest
      rw [show (rest.dropWhile _).head? = some s from hs] at hnot
      simpa using hnot
    obtain ⟨last, hlast⟩ : ∃ last, (first :: same).getLast? = some last := ⟨_, List.getLast?_cons⟩
    have hspec := h.isLastOfNextDay hn hsplit hsame hothers hlast
    refine ⟨some last, by rw [lastOfDay?_map_cons, hlast], fun c => ⟨fun hc => ?_, ?_⟩⟩
    · rw [h.isLastOfNextDay_unique hn hc hspec]
    · rintro ⟨⟩
      exact hspec

/-! ## Strategies -/

/-- What the strategies that look at opening hours make of a requested instant, for a timetable of
the open time `u`. -/
structure MovesToComponents (t : Timetable) (u : Set Instant) (requested : Instant) : Prop where
  outside : requested ∉ covered t.intervals → ∀ s : Strategy, s.requiresCalendar = true →
    s.dueDate t requested = .error (.openPeriodsNotFound requested)
  stays : requested ∈ u → ∀ s : Strategy, s.requiresCalendar = true →
    s.dueDate t requested = .ok requested
  endOfPreviousOpenDay : requested ∈ covered t.intervals → requested ∉ u →
    Answers (Span.IsLastBefore u requested) (closing t) requested
      (endOfPreviousOpenDay.dueDate t requested)
  beginningOfNextOpenHours : requested ∈ covered t.intervals → requested ∉ u →
    Answers (Span.IsFirstAfter u requested) (·.start) requested
      ((beginningOfNextOpenHours none).dueDate t requested)
  endOfNextOpenDay : requested ∈ covered t.intervals → requested ∉ u →
    Answers (Span.IsLastOfNextDay t.zone u requested) (closing t) requested
      (endOfNextOpenDay.dueDate t requested)
  nowOutside : requested ∈ covered t.intervals → requested ∉ u → ∀ now ∉ covered t.intervals,
    (endOfCurrentHours now).dueDate t requested = .error (.openPeriodsNotFound now)
  nowOpen : requested ∈ covered t.intervals → requested ∉ u → ∀ now, ∀ c, Span.IsComponent u c →
    now ∈ c → (endOfCurrentHours now).dueDate t requested = .ok (closing t c)
  nowClosed : requested ∈ covered t.intervals → requested ∉ u → ∀ now ∈ covered t.intervals,
    now ∉ u → Answers (Span.IsFirstAfter u now) (closing t) now
      ((endOfCurrentHours now).dueDate t requested)

/-- The end of the open hours current at an instant in a component is the closing time of that
component. -/
theorem closingAfter_of_mem {cursor finish : Instant} {spans : List (Span .utc)} {c : Span .utc}
    (h : Fits cursor finish spans) (ht : t.intervals = fill cursor finish spans) (hc : c ∈ spans)
    (hnow : now ∈ c) :
    closingAfter t now = .ok (closing t c) := by
  have hcovered : now ∈ covered t.intervals := by
    obtain ⟨i, hi, -, hm⟩ := (Timetable.mem_fill_isOpen_iff cursor finish).mpr ⟨c, hc, hnow⟩
    exact ⟨i, ht ▸ hi, hm⟩
  obtain ⟨p, hp⟩ := Timetable.exists_position (ht ▸ h.tiled_fill) hcovered
  have hhere := h.here_eq ht hp hc hnow
  unfold closingAfter
  rw [locate_eq_ok hp, Result.ok_bind, hhere]
  rfl

/-- Outside the components it is the closing time of the first one that follows. -/
theorem closingAfter_answers {cursor finish : Instant} {spans : List (Span .utc)}
    (h : Fits cursor finish spans) (ht : t.intervals = fill cursor finish spans)
    (hcovered : now ∈ covered t.intervals) (hnow : now ∉ Span.union spans) :
    Answers (Span.IsFirstAfter (Span.union spans) now) (closing t) now (closingAfter t now) := by
  obtain ⟨p, hp⟩ := Timetable.exists_position (ht ▸ h.tiled_fill) hcovered
  obtain ⟨hclosed, -, hafter⟩ := h.around ht hp hnow
  have hresult : closingAfter t now = closingOf t now p.nextOpen? := by
    unfold closingAfter
    rw [locate_eq_ok hp, Result.ok_bind, if_neg (by simp [hclosed])]
  rw [hresult, Timetable.nextOpen?_eq, hafter, List.head?_map]
  exact closingOf_answers fun c => h.apart.isFirstAfter_iff h.start_lt

/-- In closed time every move starts at one position, between the spans around the instant. -/
theorem exists_leaveClosedTime_eq {cursor finish : Instant} {spans : List (Span .utc)}
    (h : Fits cursor finish spans) (ht : t.intervals = fill cursor finish spans)
    (hcovered : requested ∈ covered t.intervals) (hout : requested ∉ Span.union spans) :
    ∃ p, (∀ move, leaveClosedTime t requested move = move p) ∧
      p.previousOpen? = (spans.filter (·.stop ≤ requested)).getLast?.map Interval.ofOpen ∧
      p.openAfter = (spans.filter (requested < ·.start)).map Interval.ofOpen := by
  obtain ⟨p, hp⟩ := Timetable.exists_position (ht ▸ h.tiled_fill) hcovered
  obtain ⟨hclosed, hbefore, hafter⟩ := h.around ht hp hout
  exact ⟨p, fun move => leaveClosedTime_of_closed hp hclosed, hbefore, hafter⟩

/-- In a stretch filled with spans, the strategies move a requested instant to the spans that are
the components of the open time around it. -/
theorem movesToComponents_of_fits {cursor finish : Instant} {spans : List (Span .utc)}
    (h : Fits cursor finish spans) (ht : t.intervals = fill cursor finish spans)
    (requested : Instant) :
    MovesToComponents t (Span.union spans) requested := by
  have htiled : Tiled t.intervals := ht ▸ h.tiled_fill
  constructor
  case outside =>
    intro hout s hs
    obtain ⟨move, hmove⟩ := exists_move s hs t requested
    rw [hmove]
    exact leaveClosedTime_eq_error ((Timetable.position?_eq_none_iff htiled).mpr hout)
  case stays =>
    rintro ⟨c, hc, hm⟩ s hs
    obtain ⟨move, hmove⟩ := exists_move s hs t requested
    obtain ⟨i, hi, -, hmi⟩ := (Timetable.mem_fill_isOpen_iff cursor finish).mpr ⟨c, hc, hm⟩
    obtain ⟨p, hp⟩ := Timetable.exists_position htiled ⟨i, ht ▸ hi, hmi⟩
    rw [hmove]
    refine leaveClosedTime_of_open hp ?_
    rw [h.here_eq ht hp hc hm]
    rfl
  case endOfPreviousOpenDay =>
    intro hcovered hout
    obtain ⟨p, hmove, hbefore, -⟩ := exists_leaveClosedTime_eq h ht hcovered hout
    simp only [dueDate, hmove, hbefore]
    exact closingOf_answers fun c => h.apart.isLastBefore_iff h.start_lt
  case beginningOfNextOpenHours =>
    intro hcovered hout
    obtain ⟨p, hmove, -, hafter⟩ := exists_leaveClosedTime_eq h ht hcovered hout
    simp only [dueDate, hmove, Timetable.nextOpen?_eq, hafter, List.head?_map]
    refine .of_option (fun c => h.apart.isFirstAfter_iff h.start_lt) ?_ ?_
    · intro c hc
      rw [hc]
      rfl
    · intro hnone
      rw [hnone]
      rfl
  case endOfNextOpenDay =>
    intro hcovered hout
    obtain ⟨p, hmove, -, hafter⟩ := exists_leaveClosedTime_eq h ht hcovered hout
    obtain ⟨o, ho, hfound⟩ := exists_lastOfDay? t.zone requested h.apart h.start_lt
    simp only [dueDate, hmove, hafter, ho]
    exact closingOf_answers hfound
  case nowOutside =>
    intro hcovered hout now hnow
    obtain ⟨p, hmove, -⟩ := exists_leaveClosedTime_eq h ht hcovered hout
    have hnone := (Timetable.position?_eq_none_iff htiled).mpr hnow
    simp only [dueDate, hmove, closingAfter, locate_eq_error hnone]
    rfl
  case nowOpen =>
    intro hcovered hout now c hc hnow
    obtain ⟨p, hmove, -⟩ := exists_leaveClosedTime_eq h ht hcovered hout
    simp only [dueDate, hmove]
    exact closingAfter_of_mem h ht ((h.apart.mem_iff_isComponent h.start_lt).mpr hc) hnow
  case nowClosed =>
    intro hcovered hout now hnow hnowOut
    obtain ⟨p, hmove, -⟩ := exists_leaveClosedTime_eq h ht hcovered hout
    simp only [dueDate, hmove]
    exact closingAfter_answers h ht hnow hnowOut

/-- With the timetable of opening days none of whose windows is empty or reversed, each strategy
finds the component of their open time that it is named for, or else fails. A date that is kept can
lie past the ends of the calendar, where no clock would show it. -/
theorem ofDays_movesToComponents {days : List OpeningDay} (ht : Timetable.ofDays days zone = .ok t)
    (hup : Upright days) (requested : Instant) :
    t.zone = zone ∧ MovesToComponents t (openMoments {d | d ∈ days}) requested := by
  obtain ⟨spans, range, hspans, hfits, rfl, -⟩ := Timetable.exists_fill_of_ofDays ht hup
  rw [← Timetable.union_of_openTime hspans]
  exact ⟨rfl, movesToComponents_of_fits hfits rfl requested⟩

theorem ofDays_movesToComponents_lateOpening :
    Upright Timetable.lateOpening ∧
    ∃ t, Timetable.ofDays Timetable.lateOpening Zone.london = .ok t ∧ t.zone = Zone.london ∧
      MovesToComponents t (openMoments {d | d ∈ Timetable.lateOpening})
        (.ofSecond 1774800000) :=
  ⟨Timetable.lateOpening_upright, _, Timetable.ofDays_lateOpening,
    ofDays_movesToComponents Timetable.ofDays_lateOpening Timetable.lateOpening_upright _⟩

end Strategy

end Circulation
