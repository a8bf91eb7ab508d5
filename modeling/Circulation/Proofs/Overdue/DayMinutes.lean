import Circulation.Proofs.Overdue.OpenMinutes
import Mathlib.Algebra.BigOperators.Ring.Finset
import Mathlib.Algebra.Order.BigOperators.Group.List

/-!
# A day's minutes

The minutes of a day are counted window by window on the day's clock, and the open minutes between
two instants in all that the windows cover. In a zone of one offset, and for instants around the
whole day, the two differ by the time that several windows share and by what is lost in rounding
each window down.
-/

namespace Circulation

open OpeningDay

/-! ## Windows on the clock and in time -/

namespace Zone

variable {z : Zone} {offset : Int} {v w : Span .wall} {m : Instant}

/-- The span of the instants at which a clock of the offset shows the times of a window. -/
def spanAt (offset : Int) (w : Span .wall) : Span .utc :=
  ⟨instantAt w.start offset, instantAt w.stop offset⟩

theorem IsFixed.mem_spanAt (h : z.IsFixed offset) : m ∈ spanAt offset w ↔ z.toLocal m ∈ w := by
  rw [Span.mem_def, Span.mem_def, ← h.toLocal_le_iff, ← h.toLocal_lt_iff, spanAt,
    h.toLocal_instantAt, h.toLocal_instantAt]

/-- Windows share a local time just if their spans share an instant. -/
theorem IsFixed.misses_spanAt (h : z.IsFixed offset) :
    (spanAt offset v).Misses (spanAt offset w) ↔ v.Misses w := by
  simp only [Span.Misses, h.mem_spanAt]
  refine ⟨fun hmiss l hv hw => ?_, fun hmiss m => hmiss (z.toLocal m)⟩
  have hshown := hmiss (instantAt l offset)
  rw [h.toLocal_instantAt] at hshown
  exact hshown hv hw

theorem length_spanAt (hstart : ¬ w.start.IsLeapSecond) (hstop : ¬ w.stop.IsLeapSecond)
    (hlt : w.start < w.stop) :
    (Overdue.length {m | m ∈ spanAt offset w} : Int) = w.stop.nanosSince w.start := by
  have hlength : Overdue.length {m | m ∈ spanAt offset w} =
      ((instantAt w.stop offset).nanos - (instantAt w.start offset).nanos).toNat :=
    Overdue.length_stretch hstart hstop
  have hnanos := (Moment.nanos_lt_iff hstart hstop).mpr hlt
  rw [hlength, Moment.nanosSince_eq hstop hstart]
  simp only [Moment.nanos, instantAt, nanosPerSecond] at hnanos ⊢
  omega

end Zone

namespace OpeningDay

/-! ## Window by window -/

/-- A minute in nanoseconds. -/
def minute : Int := 60 * nanosPerSecond

/-- The lengths of the open windows in nanoseconds. -/
def windowNanos (d : OpeningDay) : List Int :=
  d.openWindows.map fun w => w.stop.nanosSince w.start

/-- What rounding each window down to minutes leaves out. -/
def lostNanos (d : OpeningDay) : Int := (d.windowNanos.map (· % minute)).sum

variable {d : OpeningDay} {offset : Int} {a b : Instant}

theorem NoLeap.minutesSince_add_lost (h : d.NoLeap) : ∀ w ∈ d.openWindows,
    minute * w.stop.minutesSince w.start + w.stop.nanosSince w.start % minute =
      w.stop.nanosSince w.start := by
  intro w hw
  obtain ⟨hstart, hstop⟩ := h.window_not_leap hw
  rw [Moment.minutesSince_eq hstop hstart (date_of_mem_openWindows hw).2.2.le,
    Moment.nanosSince_eq hstop hstart]
  exact Int.mul_ediv_add_emod _ _

/-- The minutes of the day and what they leave out are all the time in its windows. -/
theorem NoLeap.openMinutes_add_lostNanos (h : d.NoLeap) :
    minute * d.openMinutes + d.lostNanos = d.windowNanos.sum := by
  have hwindow := h.minutesSince_add_lost
  unfold openMinutes lostNanos windowNanos
  rw [List.map_map]
  generalize d.openWindows = windows at hwindow
  induction windows with
  | nil => rfl
  | cons w rest ih =>
    obtain ⟨hw, hrest⟩ := List.forall_mem_cons.mp hwindow
    have htail := ih hrest
    simp only [List.foldr_cons, List.map_cons, List.sum_cons, Function.comp_apply, Int.mul_add]
      at htail ⊢
    omega

theorem lostNanos_nonneg (d : OpeningDay) : 0 ≤ d.lostNanos := by
  refine List.sum_nonneg fun n hn => ?_
  obtain ⟨l, -, rfl⟩ := List.mem_map.mp hn
  exact Int.emod_nonneg l (by decide)

/-! ## All windows together -/

/-- The length of the time at which the day is open. -/
noncomputable def openNanos (d : OpeningDay) : Int := Overdue.length (openMoments {x | x ∈ [d]})

/-- No two open windows share a time. -/
def Separate (d : OpeningDay) : Prop := d.openWindows.Pairwise Span.Misses

/-- The open windows lie between two instants. -/
def Within (d : OpeningDay) (a b : Instant) : Prop :=
  ∀ w ∈ d.openWindows, d.zone.toLocal a ≤ w.start ∧ w.stop ≤ d.zone.toLocal b

theorem Within.spanAt_mem (h : d.Within a b) (hz : d.zone.IsFixed offset) {w : Span .wall}
    (hw : w ∈ d.openWindows) : a ≤ Zone.instantAt w.start offset ∧
      Zone.instantAt w.stop offset ≤ b := by
  rw [← hz.toLocal_le_iff, ← hz.toLocal_le_iff, hz.toLocal_instantAt, hz.toLocal_instantAt]
  exact h w hw

/-- Windows between two representable instants resolve. -/
theorem Within.openSpans_eq (h : d.Within a b) (hz : d.zone.IsFixed offset) (ha : a.InRange)
    (hb : b.InRange) : d.openSpans = .ok (d.openWindows.map (Zone.spanAt offset)) := by
  refine Result.mapM_eq_map fun w hw => ?_
  obtain ⟨hstart, hstop⟩ := h.spanAt_mem hz hw
  have hlt : Zone.instantAt w.start offset < Zone.instantAt w.stop offset := by
    rw [← hz.toLocal_lt_iff, hz.toLocal_instantAt, hz.toLocal_instantAt]
    exact (date_of_mem_openWindows hw).2.2
  unfold resolveWindow
  rw [hz.resolve_eq (Moment.inRange_of_between ha hb hstart (hlt.le.trans hstop)),
    hz.resolve_eq (Moment.inRange_of_between ha hb (hstart.trans hlt.le) hstop)]
  rfl

theorem Within.openTime_eq (h : d.Within a b) (hz : d.zone.IsFixed offset) (ha : a.InRange)
    (hb : b.InRange) :
    Timetable.openTime [d] = .ok (Span.merge (d.openWindows.map (Zone.spanAt offset))) := by
  have hspans : [d].mapM openSpans = .ok [d.openWindows.map (Zone.spanAt offset)] :=
    Result.mapM_eq_map (g := fun e : OpeningDay => e.openWindows.map (Zone.spanAt offset))
      (List.forall_mem_singleton.mpr (h.openSpans_eq hz ha hb))
  unfold Timetable.openTime
  rw [hspans, Result.ok_bind, List.flatten_singleton]
  rfl

/-- Nothing is cut off by clipping to instants around the day. -/
theorem Within.openMinutes_eq (h : d.Within a b) (hz : d.zone.IsFixed offset) (ha : a.InRange)
    (hb : b.InRange) (hleap : d.NoLeap) :
    Overdue.openMinutes [d] a b = .ok (d.openNanos / minute) := by
  have htime := h.openTime_eq hz ha hb
  have hordinary := Overdue.ordinary_of_openTime htime (List.forall_mem_singleton.mpr hleap)
  have hclip : (Span.merge (d.openWindows.map (Zone.spanAt offset))).map (·.clip a b) =
      Span.merge (d.openWindows.map (Zone.spanAt offset)) := by
    refine (List.map_congr_left fun s hs => ?_).trans (List.map_id _)
    obtain ⟨⟨first, hfirst, hstart⟩, last, hlast, hstop⟩ := Span.ends_of_mem_merge s hs
    obtain ⟨v, hv, rfl⟩ := List.mem_map.mp hfirst
    obtain ⟨w, hw, rfl⟩ := List.mem_map.mp hlast
    exact Overdue.clip_eq_self (hstart ▸ (h.spanAt_mem hz hv).1)
      (hstop ▸ (h.spanAt_mem hz hw).2)
  unfold Overdue.openMinutes
  rw [htime, Result.ok_bind, hclip, hordinary.totalNanos_eq_length (Span.merge_apart _).misses,
    Timetable.union_of_openTime htime]
  rfl

theorem NoLeap.ordinary (h : d.NoLeap) (offset : Int) :
    Overdue.OrdinaryEnds (d.openWindows.map (Zone.spanAt offset)) := by
  intro s hs
  obtain ⟨w, hw, rfl⟩ := List.mem_map.mp hs
  exact h.window_not_leap hw

theorem NoLeap.sum_lengths (h : d.NoLeap) (offset : Int) :
    ((Overdue.lengths (d.openWindows.map (Zone.spanAt offset))).sum : Int) =
      d.windowNanos.sum := by
  rw [Nat.cast_list_sum, Overdue.lengths, List.map_map, List.map_map, windowNanos]
  congr 1
  refine List.map_congr_left fun w hw => ?_
  obtain ⟨hstart, hstop⟩ := h.window_not_leap hw
  exact Zone.length_spanAt hstart hstop (date_of_mem_openWindows hw).2.2

/-- The day is open no longer than its windows are together, and just as long if they are
separate. -/
theorem Within.openNanos_le (h : d.Within a b) (hz : d.zone.IsFixed offset) (ha : a.InRange)
    (hb : b.InRange) (hleap : d.NoLeap) : d.openNanos ≤ d.windowNanos.sum ∧
      (d.openNanos = d.windowNanos.sum ↔ d.Separate) := by
  obtain ⟨hle, heq⟩ := (hleap.ordinary offset).length_union
  have hopen : d.openNanos =
      (Overdue.length (Span.union (d.openWindows.map (Zone.spanAt offset))) : Int) := by
    rw [openNanos, ← Timetable.union_of_openTime (h.openTime_eq hz ha hb), Span.union_merge]
  have hseparate : (d.openWindows.map (Zone.spanAt offset)).Pairwise Span.Misses ↔ d.Separate := by
    rw [List.pairwise_map]
    exact List.Pairwise.iff fun v w => hz.misses_spanAt
  rw [hopen, ← hleap.sum_lengths offset, ← hseparate, ← heq]
  omega

/-- A day's minutes are the open minutes around it just if the time that its windows share, counted
again, and what a whole number of minutes leaves of its open time make up for what is lost in
rounding each window down. Without shared time less than a minute has to be lost, and if nothing is
lost, no time may be shared. -/
theorem openMinutes_agree_iff (hz : d.zone.IsFixed offset) (hleap : d.NoLeap) (ha : a.InRange)
    (hb : b.InRange) (h : d.Within a b) :
    ∃ n, Overdue.openMinutes [d] a b = .ok n ∧
      (d.openMinutes = n ↔
        d.windowNanos.sum - d.openNanos + d.openNanos % minute = d.lostNanos) ∧
      (d.Separate → (d.openMinutes = n ↔ d.lostNanos < minute)) ∧
      (d.lostNanos = 0 → (d.openMinutes = n ↔ d.Separate)) := by
  have hsum := hleap.openMinutes_add_lostNanos
  have hlost := d.lostNanos_nonneg
  obtain ⟨hle, hseparate⟩ := h.openNanos_le hz ha hb hleap
  rw [← hseparate]
  -- Both counts are quotients by a minute, and their remainders decide.
  refine ⟨_, h.openMinutes_eq hz ha hb hleap, ?_, fun heq => ?_, fun hzero => ?_⟩
  all_goals
    simp only [minute, nanosPerSecond] at hsum ⊢
    omega

/-! ## Two windows -/

/-- Hours of 16 January 2026. -/
def onJanuary (hours : List OpeningHour) : OpeningDay := ⟨⟨20469⟩, false, true, hours, Zone.utc⟩

theorem openWindows_onJanuary {hours : List OpeningHour} {windows : List (Span .wall)}
    (h : hours.filterMap (·.localWindow ⟨20469⟩) = windows)
    (hsorted : windows.Pairwise fun v w => v.start ≤ w.start) :
    (onJanuary hours).openWindows = windows := by
  have hsort : Span.sortByStart windows = windows :=
    List.mergeSort_of_pairwise (hsorted.imp fun hle => by simpa using hle)
  rw [← hsort, ← h]
  rfl

/-- What is counted in two windows of one day, the second of which starts no earlier. -/
theorem Within.openMinutes_pair {v w : Span .wall} (h : d.Within a b)
    (hz : d.zone.IsFixed offset) (ha : a.InRange) (hb : b.InRange) (hw : d.openWindows = [v, w])
    (hle : v.start ≤ w.start) :
    Overdue.openMinutes [d] a b = .ok (Moment.wholeMinutes (Overdue.totalNanos
      ((Span.mergeFrom (Zone.spanAt offset v) [Zone.spanAt offset w]).map (·.clip a b)))) := by
  have hstart : Zone.instantAt v.start offset ≤ Zone.instantAt w.start offset := by
    rwa [← hz.toLocal_le_iff, hz.toLocal_instantAt, hz.toLocal_instantAt]
  unfold Overdue.openMinutes
  rw [h.openTime_eq hz ha hb, hw]
  unfold Span.merge Span.sortByStart
  rw [List.mergeSort_of_pairwise (by simpa [Zone.spanAt] using hstart)]
  rfl

/-- Hours on either side of a lunch break, with seconds. -/
def lunchBreak : OpeningDay :=
  let clock hour minute second := (TimeOfDay.ofClock? hour minute second 0).getD .midnight
  onJanuary [⟨clock 9 0 0, clock 12 30 20⟩, ⟨clock 13 0 0, clock 17 0 30⟩]

/-- The seconds lost are less than a minute. -/
theorem openMinutes_agree_iff_lunchBreak :
    let midnight : Instant := .ofSecond 1768521600
    let next : Instant := .ofSecond 1768608000
    lunchBreak.zone.IsFixed 0 ∧ lunchBreak.NoLeap ∧ lunchBreak.Within midnight next ∧
    lunchBreak.Separate ∧ lunchBreak.openMinutes = 450 ∧
    Overdue.openMinutes [lunchBreak] midnight next = .ok 450 := by
  intro midnight next
  have hz : lunchBreak.zone.IsFixed 0 := Zone.constant_isFixed "UTC" (by decide) (by decide)
  have hleap : lunchBreak.NoLeap := by decide
  have hwindows : lunchBreak.openWindows =
      [⟨.ofSecond 1768554000, .ofSecond 1768566620⟩,
        ⟨.ofSecond 1768568400, .ofSecond 1768582830⟩] :=
    openWindows_onJanuary (by decide) (by decide)
  have hwithin : lunchBreak.Within midnight next := by
    unfold Within
    rw [hwindows]
    decide
  have hseparate : lunchBreak.Separate := by
    unfold Separate
    rw [hwindows]
    exact Span.Apart.misses (by unfold Span.Apart; decide)
  have hminutes : lunchBreak.openMinutes = 450 := by
    unfold openMinutes
    rw [hwindows]
    decide
  have hlost : lunchBreak.lostNanos < minute := by
    unfold lostNanos windowNanos
    rw [hwindows]
    decide
  obtain ⟨n, hn, -, hagree, -⟩ := openMinutes_agree_iff hz hleap (by decide) (by decide) hwithin
  rw [hn, ← (hagree hseparate).mpr hlost, hminutes]
  exact ⟨hz, hleap, hwithin, hseparate, rfl, rfl⟩

/-- Two windows that share an hour. -/
def sharedHour : OpeningDay :=
  let clock hour := (TimeOfDay.ofClock? hour 0 0 0).getD .midnight
  onJanuary [⟨clock 9, clock 12⟩, ⟨clock 11, clock 13⟩]

/-- Two windows of half a minute. -/
def halfMinutes : OpeningDay :=
  let clock hour second := (TimeOfDay.ofClock? hour 0 second 0).getD .midnight
  onJanuary [⟨clock 9 0, clock 9 30⟩, ⟨clock 11 0, clock 11 30⟩]

/-- An hour that windows share is counted in each of them, and half a minute in neither. -/
theorem openMinutes_disagree :
    let midnight : Instant := .ofSecond 1768521600
    let next : Instant := .ofSecond 1768608000
    Zone.utc.IsFixed 0 ∧
    (sharedHour.zone = Zone.utc ∧ sharedHour.NoLeap ∧ sharedHour.Within midnight next ∧
      sharedHour.openMinutes = 300 ∧ Overdue.openMinutes [sharedHour] midnight next = .ok 240) ∧
    halfMinutes.zone = Zone.utc ∧ halfMinutes.NoLeap ∧ halfMinutes.Within midnight next ∧
      halfMinutes.openMinutes = 0 ∧ Overdue.openMinutes [halfMinutes] midnight next = .ok 1 := by
  intro midnight next
  have hz : Zone.utc.IsFixed 0 := Zone.constant_isFixed "UTC" (by decide) (by decide)
  have hshared : sharedHour.openWindows =
      [⟨.ofSecond 1768554000, .ofSecond 1768564800⟩,
        ⟨.ofSecond 1768561200, .ofSecond 1768568400⟩] :=
    openWindows_onJanuary (by decide) (by decide)
  have hhalves : halfMinutes.openWindows =
      [⟨.ofSecond 1768554000, .ofSecond 1768554030⟩,
        ⟨.ofSecond 1768561200, .ofSecond 1768561230⟩] :=
    openWindows_onJanuary (by decide) (by decide)
  have hwithin : sharedHour.Within midnight next ∧ halfMinutes.Within midnight next := by
    unfold Within
    rw [hshared, hhalves]
    decide
  refine ⟨hz, ⟨rfl, by decide, hwithin.1, ?_, ?_⟩, rfl, by decide, hwithin.2, ?_, ?_⟩
  · unfold openMinutes
    rw [hshared]
    decide
  · rw [hwithin.1.openMinutes_pair hz (by decide) (by decide) hshared (by decide)]
    decide
  · unfold openMinutes
    rw [hhalves]
    decide
  · rw [hwithin.2.openMinutes_pair hz (by decide) (by decide) hhalves (by decide)]
    decide

end OpeningDay

end Circulation
