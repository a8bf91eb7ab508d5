import Circulation.Proofs.Timetable.Interval
import Circulation.Proofs.Timetable.OpenTime
import Circulation.Zone.Named
import Mathlib.Order.Bounds.Basic

/-!
# The timetable of opening days

A timetable made from opening days fills the stretch from the start of the earliest date to the end
of the latest, and further where a window sticks out, with the components of the open time and the
gaps between them.
-/

namespace Circulation

open OpeningDay

namespace Timetable

variable {days : List OpeningDay} {zone : Zone} {t : Timetable} {spans : List (Span .utc)}

/-! ## Dates -/

theorem isLeast_foldl_min {α β : Type} [LinearOrder β] (g : α → β) (b : β) (rest : List α) :
    IsLeast (insert b {c | ∃ a ∈ rest, g a = c}) (rest.foldl (fun m a => min m (g a)) b) := by
  induction rest generalizing b with
  | nil => simp
  | cons a rest ih =>
    obtain ⟨hmem, hle⟩ := ih (min b (g a))
    refine ⟨?_, ?_⟩
    · rcases hmem with heq | ⟨a', ha', heq⟩
      · rw [List.foldl_cons, heq]
        rcases min_choice b (g a) with hb | ha
        · exact .inl hb
        · exact .inr ⟨a, List.mem_cons_self, ha.symm⟩
      · exact .inr ⟨a', List.mem_cons_of_mem a ha', heq⟩
    · have hmin := hle (Set.mem_insert _ _)
      rintro c (rfl | ⟨a', ha', rfl⟩)
      · exact hmin.trans (min_le_left _ _)
      · rcases List.mem_cons.mp ha' with rfl | ha'
        · exact hmin.trans (min_le_right _ _)
        · exact hle (.inr ⟨a', ha', rfl⟩)

theorem isGreatest_foldl_max {α β : Type} [LinearOrder β] (g : α → β) (b : β) (rest : List α) :
    IsGreatest (insert b {c | ∃ a ∈ rest, g a = c}) (rest.foldl (fun m a => max m (g a)) b) :=
  isLeast_foldl_min (β := βᵒᵈ) g b rest

/-- The dates of some days. -/
def datesOf (days : List OpeningDay) : Set Date := {x | ∃ d ∈ days, d.date = x}

theorem dateRange_spec {first last : Date} (h : dateRange days = some (first, last)) :
    IsLeast (datesOf days) first ∧ IsGreatest (datesOf days) last := by
  cases days with
  | nil => cases h
  | cons d rest =>
    simp only [dateRange, Option.some.injEq, Prod.mk.injEq] at h
    obtain ⟨rfl, rfl⟩ := h
    have hset : datesOf (d :: rest) = insert d.date {x | ∃ e ∈ rest, e.date = x} := by
      ext x
      simp [datesOf, eq_comm]
    rw [hset]
    exact ⟨isLeast_foldl_min _ _ _, isGreatest_foldl_max _ _ _⟩

/-! ## The stretch covered -/

section Ends

variable {all : List (Span .utc)}

/-- The least of a value and the values of all spans is that of the value and of the least span, if
other spans have the values of these and the least of them is known. -/
theorem isLeast_getD {β : Type} [LinearOrder β] {g : Span .utc → β} {merged : List (Span .utc)}
    {o : Option (Span .utc)} (b : β) (hends : ∀ s ∈ merged, ∃ w ∈ all, g w = g s)
    (hin : ∀ w ∈ all, ∃ s ∈ merged, g s ≤ g w) (hnone : o = none → merged = [])
    (hsome : ∀ s, o = some s → s ∈ merged ∧ ∀ r ∈ merged, g s ≤ g r) :
    IsLeast (insert b {x | ∃ w ∈ all, g w = x}) ((o.map fun s => min b (g s)).getD b) := by
  cases o with
  | none =>
    refine ⟨.inl rfl, ?_⟩
    rintro x (rfl | ⟨w, hw, rfl⟩)
    · exact le_rfl
    · obtain ⟨s, hs, -⟩ := hin w hw
      simp [hnone rfl] at hs
  | some s =>
    obtain ⟨hs, hmin⟩ := hsome s rfl
    refine ⟨?_, ?_⟩
    · rcases min_choice b (g s) with h | h
      · exact .inl h
      · obtain ⟨w, hw, hws⟩ := hends s hs
        exact .inr ⟨w, hw, hws.trans h.symm⟩
    · rintro x (rfl | ⟨w, hw, rfl⟩)
      · exact min_le_left _ _
      · obtain ⟨r, hr, hrw⟩ := hin w hw
        exact (min_le_right _ _).trans ((hmin r hr).trans hrw)

theorem isLeast_head (hn : ∀ w ∈ all, w.start < w.stop) (start : Instant) :
    IsLeast (insert start {x | ∃ w ∈ all, w.start = x})
      (((Span.merge all).head?.map (min start ·.start)).getD start) := by
  refine isLeast_getD start (fun s hs => (Span.ends_of_mem_merge s hs).1) (fun w hw => ?_)
    List.head?_eq_none_iff.mp fun s hs => ?_
  · obtain ⟨s, hs, hle, -⟩ := Span.exists_merge_of_mem hn hw
    exact ⟨s, hs, hle⟩
  · exact ((Span.merge_apart all).head?_eq_some_iff (Span.start_lt_of_mem_merge hn)).mp hs

theorem isGreatest_getLast (hn : ∀ w ∈ all, w.start < w.stop) (stop : Instant) :
    IsGreatest (insert stop {x | ∃ w ∈ all, w.stop = x})
      (((Span.merge all).getLast?.map (max stop ·.stop)).getD stop) := by
  refine isLeast_getD (β := Instantᵒᵈ) stop (fun s hs => (Span.ends_of_mem_merge s hs).2)
    (fun w hw => ?_) List.getLast?_eq_none_iff.mp fun s hs => ?_
  · obtain ⟨s, hs, -, hle⟩ := Span.exists_merge_of_mem hn hw
    exact ⟨s, hs, hle⟩
  · exact ((Span.merge_apart all).getLast?_eq_some_iff (Span.start_lt_of_mem_merge hn)).mp hs

end Ends

/-- From the earlier of the start of the earliest date and the first opening to the later of the
start of the day after the latest date and the last closing. -/
structure IsCoverage (zone : Zone) (days : List OpeningDay) (range : Span .utc) : Prop where
  start : ∃ first start, IsLeast (datesOf days) first ∧ zone.startOfDay first = .ok start ∧
    IsLeast (insert start {x | ∃ w ∈ windowsOf {d | d ∈ days}, w.start = x}) range.start
  stop : ∃ last stop, IsGreatest (datesOf days) last ∧
    zone.startOfDay (last.addDays 1) = .ok stop ∧
    IsGreatest (insert stop {x | ∃ w ∈ windowsOf {d | d ∈ days}, w.stop = x}) range.stop

theorem endOfCoverage_eq {d : Date} (h : d < Date.last) :
    endOfCoverage zone d = zone.startOfDay (d.addDays 1) := by
  simp [endOfCoverage, Date.next?, h]

/-- The instants between which the timetable is filled, given the ends of its dates. -/
def frame (start stop : Instant) (spans : List (Span .utc)) : Span .utc :=
  ⟨(spans.head?.map (min start ·.start)).getD start,
    (spans.getLast?.map (max stop ·.stop)).getD stop⟩

theorem ofDays_eq_ok_iff {first last : Date} (h : dateRange days = some (first, last)) :
    ofDays days zone = .ok t ↔
      ∃ spans start stop, openTime days = .ok spans ∧ zone.startOfDay first = .ok start ∧
        endOfCoverage zone last = .ok stop ∧
        t = ⟨fill (frame start stop spans).start (frame start stop spans).stop spans, zone⟩ := by
  unfold ofDays
  simp only [h, Result.bind_eq_ok_iff, Result.pure_eq_ok_iff]
  refine ⟨?_, ?_⟩
  · rintro ⟨spans, hspans, start, hstart, stop, hstop, rfl⟩
    exact ⟨spans, start, stop, hspans, hstart, hstop, rfl⟩
  · rintro ⟨spans, start, stop, hspans, hstart, hstop, rfl⟩
    exact ⟨spans, hspans, start, hstart, stop, hstop, rfl⟩

theorem exists_dateRange (h : days ≠ []) : ∃ first last, dateRange days = some (first, last) := by
  cases days with
  | nil => exact absurd rfl h
  | cons d rest => exact ⟨_, _, rfl⟩

theorem zone_of_ofDays (ht : ofDays days zone = .ok t) : t.zone = zone := by
  by_cases hne : days = []
  · subst hne
    obtain rfl : empty zone = t := by simpa [ofDays, dateRange] using ht
    rfl
  · obtain ⟨first, last, hrange⟩ := exists_dateRange hne
    obtain ⟨-, -, -, -, -, -, rfl⟩ := (ofDays_eq_ok_iff hrange).mp ht
    rfl

theorem fits_frame (h : openTime days = .ok spans) (hup : Upright days) (start stop : Instant) :
    Fits (frame start stop spans).start (frame start stop spans).stop spans := by
  obtain ⟨all, hall, rfl⟩ := exists_windows_of_openTime h
  have hn : ∀ w ∈ all, w.start < w.stop := fun w hw => hup w ((hall w).mp hw)
  refine ⟨Span.merge_apart all, Span.start_lt_of_mem_merge hn, fun s hs => ?_, fun s hs => ?_⟩
  · obtain ⟨⟨w, hw, hws⟩, -⟩ := Span.ends_of_mem_merge s hs
    exact (isLeast_head hn start).2 (.inr ⟨w, hw, hws⟩)
  · obtain ⟨-, w, hw, hws⟩ := Span.ends_of_mem_merge s hs
    exact (isGreatest_getLast hn stop).2 (.inr ⟨w, hw, hws⟩)

/-- The timetable of some days is a stretch filled with their open time. -/
theorem exists_fill_of_ofDays (ht : ofDays days zone = .ok t) (hup : Upright days) :
    ∃ spans range, openTime days = .ok spans ∧ Fits range.start range.stop spans ∧
      t = ⟨fill range.start range.stop spans, zone⟩ ∧
      (days ≠ [] → (∀ d ∈ days, d.date < Date.last) → IsCoverage zone days range) := by
  by_cases hne : days = []
  · subst hne
    obtain rfl : empty zone = t := by simpa [ofDays, dateRange] using ht
    let zero : Instant := .ofSecond 0
    refine ⟨[], ⟨zero, zero⟩, ?_, ⟨.nil, by simp, by simp, by simp⟩, ?_, fun h => absurd rfl h⟩
    · simp [openTime, Span.merge, Span.sortByStart]
    · simp [fill, gap, empty]
  obtain ⟨first, last, hrange⟩ := exists_dateRange hne
  obtain ⟨hfirst, hlast⟩ := dateRange_spec hrange
  obtain ⟨spans, start, stop, hspans, hstart, hstop, rfl⟩ := (ofDays_eq_ok_iff hrange).mp ht
  refine ⟨spans, frame start stop spans, hspans, fits_frame hspans hup start stop, rfl,
    fun _ hdates => ?_⟩
  obtain ⟨all, hall, rfl⟩ := exists_windows_of_openTime hspans
  have hn : ∀ w ∈ all, w.start < w.stop := fun w hw => hup w ((hall w).mp hw)
  have hleast := isLeast_head hn start
  have hgreatest := isGreatest_getLast hn stop
  simp only [hall] at hleast hgreatest
  obtain ⟨d, hd, rfl⟩ := hlast.1
  rw [endOfCoverage_eq (hdates d hd)] at hstop
  exact ⟨⟨first, start, hfirst, hstart, hleast⟩, ⟨d.date, stop, hlast, hstop, hgreatest⟩⟩

/-- The same days in any order and number have the same timetable. -/
theorem ofDays_congr {others : List OpeningDay} (ht : ofDays days zone = .ok t)
    (hup : Upright days) (hmem : ∀ d, d ∈ others ↔ d ∈ days) : ofDays others zone = .ok t := by
  by_cases hne : days = []
  · subst hne
    obtain rfl : others = [] := List.eq_nil_iff_forall_not_mem.mpr fun d hd => by
      simpa using (hmem d).mp hd
    exact ht
  have hne' : others ≠ [] := by
    rintro rfl
    obtain ⟨d, hd⟩ := List.exists_mem_of_ne_nil days hne
    simpa using (hmem d).mpr hd
  obtain ⟨first, last, hrange⟩ := exists_dateRange hne
  obtain ⟨first', last', hrange'⟩ := exists_dateRange hne'
  have hdates : datesOf others = datesOf days := by
    ext x
    simp only [datesOf, hmem]
  obtain ⟨hfirst, hlast⟩ := dateRange_spec hrange
  obtain ⟨hfirst', hlast'⟩ := dateRange_spec hrange'
  rw [hdates] at hfirst' hlast'
  obtain rfl := hfirst.unique hfirst'
  obtain rfl := hlast.unique hlast'
  obtain ⟨spans, start, stop, hspans, hrest⟩ := (ofDays_eq_ok_iff hrange).mp ht
  exact (ofDays_eq_ok_iff hrange').mpr ⟨spans, start, stop, openTime_congr hspans hup hmem, hrest⟩

/-! ## The line of intervals -/

/-- The position shows the interval that holds the instant among all the others, which do not. -/
structure Shows (t : Timetable) (m : Instant) (p : Position) : Prop where
  intervals : t.intervals = p.before.reverse ++ p.here :: p.after
  mem : m ∈ p.here.toSpan
  unique : ∀ i ∈ p.before ++ p.after, m ∉ i.toSpan

theorem Tiled.shows {m : Instant} {p : Position} (h : Tiled t.intervals)
    (hp : t.position? m = some p) : Shows t m p := by
  obtain ⟨heq, hm⟩ := (position?_eq_some_iff h).mp hp
  obtain ⟨hbefore, hafter⟩ := h.around hp
  refine ⟨heq, hm, fun i hi hmi => ?_⟩
  rcases List.mem_append.mp hi with hi | hi
  · exact (hbefore i hi).not_gt hmi.2
  · exact (hafter i hi).not_ge hmi.1

/-- The timetable of opening days none of whose windows is empty or reversed is a line of intervals
without a break, open and closed in turn, over the stretch that the days cover. It is open just in
the windows, a look-up finds the one interval of each instant covered, and the order and the number
of times in which the days are given do not matter. -/
theorem ofDays_tiled (hne : days ≠ []) (hdates : ∀ d ∈ days, d.date < Date.last)
    (ht : ofDays days zone = .ok t) (hup : Upright days) :
    Tiled t.intervals ∧
    (∃ range, IsCoverage zone days range ∧
      (∀ m, m ∈ covered t.intervals ↔ m ∈ range) ∧
      (∀ m ∈ range, ∃ p, t.position? m = some p ∧ Shows t m p) ∧
      (∀ m, m ∉ range → t.position? m = none)) ∧
    (∀ m, (∃ i ∈ t.intervals, i.isOpen = true ∧ m ∈ i.toSpan) ↔
      ∃ d ∈ days, ∃ w, d.HasSpan w ∧ m ∈ w) ∧
    ∀ others, (∀ d, d ∈ others ↔ d ∈ days) → ofDays others zone = .ok t := by
  obtain ⟨spans, range, hspans, hfits, rfl, hcover⟩ := exists_fill_of_ofDays ht hup
  have htiled := hfits.tiled_fill
  have hcovered : ∀ m, m ∈ covered (fill range.start range.stop spans) ↔ m ∈ range :=
    fun m => hfits.mem_covered_fill
  refine ⟨htiled, ⟨range, hcover hne hdates, hcovered, fun m hm => ?_, fun m hm => ?_⟩,
    fun m => ?_, fun others hmem => ofDays_congr ht hup hmem⟩
  · cases hp : position? ⟨fill range.start range.stop spans, zone⟩ m with
    | none => exact absurd ((hcovered m).mpr hm) ((position?_eq_none_iff htiled).mp hp)
    | some p => exact ⟨p, rfl, htiled.shows hp⟩
  · exact (position?_eq_none_iff htiled).mpr fun hin => hm ((hcovered m).mp hin)
  · rw [mem_fill_isOpen_iff, union_of_openTime hspans]
    refine ⟨?_, ?_⟩
    · rintro ⟨w, ⟨d, hd, hw⟩, hm⟩
      exact ⟨d, hd, w, hw, hm⟩
    · rintro ⟨d, hd, w, hw, hm⟩
      exact ⟨w, ⟨d, hd, hw⟩, hm⟩

/-- Hours of two zones that overlap, of which London's run past midnight and over the change to
summer time, with one of the days given twice. -/
def lateOpening : List OpeningDay :=
  let clock hour := (TimeOfDay.ofClock? hour 0 0 0).getD .midnight
  [.withHours ⟨20541⟩ Zone.kolkata [⟨clock 0, clock 3⟩],
    .withHours ⟨20541⟩ Zone.kolkata [⟨clock 0, clock 3⟩],
    .withHours ⟨20540⟩ Zone.london [⟨clock 20, clock 2⟩]]

theorem openSpans_lateOpening : lateOpening.mapM openSpans = .ok
    [[⟨.ofSecond 1774722600, .ofSecond 1774733400⟩],
      [⟨.ofSecond 1774722600, .ofSecond 1774733400⟩],
      [⟨.ofSecond 1774728000, .ofSecond 1774746000⟩]] := by
  decide +kernel

theorem lateOpening_upright : Upright lateOpening :=
  upright_of_mapM openSpans_lateOpening (by decide)

theorem openTime_lateOpening : openTime lateOpening =
    .ok [⟨.ofSecond 1774722600, .ofSecond 1774746000⟩] := by
  unfold openTime Span.merge Span.sortByStart
  rw [openSpans_lateOpening, Result.ok_bind, List.mergeSort_of_pairwise (by decide)]
  rfl

def lateTimetable : Timetable :=
  ⟨[.ofClosed (.ofSecond 1774656000) (.ofSecond 1774722600),
    .ofOpen ⟨.ofSecond 1774722600, .ofSecond 1774746000⟩,
    .ofClosed (.ofSecond 1774746000) (.ofSecond 1774825200)], Zone.london⟩

theorem ofDays_lateOpening : ofDays lateOpening Zone.london = .ok lateTimetable := by
  have hrange : dateRange lateOpening = some (⟨20540⟩, ⟨20541⟩) := by decide +kernel
  refine (ofDays_eq_ok_iff hrange).mpr
    ⟨_, .ofSecond 1774656000, .ofSecond 1774825200, openTime_lateOpening, ?_, ?_, ?_⟩
  · decide +kernel
  · decide +kernel
  · decide +kernel

theorem ofDays_tiled_lateOpening :
    lateOpening ≠ [] ∧ (∀ d ∈ lateOpening, d.date < Date.last) ∧ Upright lateOpening ∧
    ∃ t, ofDays lateOpening Zone.london = .ok t ∧ Tiled t.intervals ∧
      (∃ range, IsCoverage Zone.london lateOpening range ∧
        ∀ m, m ∈ covered t.intervals ↔ m ∈ range) ∧
      ∀ others, (∀ d, d ∈ others ↔ d ∈ lateOpening) → ofDays others Zone.london = .ok t := by
  have hne : lateOpening ≠ [] := by decide
  have hdates : ∀ d ∈ lateOpening, d.date < Date.last := by decide
  obtain ⟨htiled, ⟨range, hrange, hcovered, -⟩, -, hcongr⟩ :=
    ofDays_tiled hne hdates ofDays_lateOpening lateOpening_upright
  exact ⟨hne, hdates, lateOpening_upright, _, ofDays_lateOpening, htiled,
    ⟨range, hrange, hcovered⟩, hcongr⟩

end Timetable

end Circulation
