import Circulation.Proofs.Strategy.ClosedTime
import Circulation.Proofs.Timetable.Larger

/-!
# Openings and closings

Around a moment of closed time the components of merged windows begin and end where the nearest
windows do: the first component that follows starts at the earliest start of a window, and the last
one before stops at the latest stop of one. The strategies that go to the next opening and to the
previous closing therefore go to those times.
-/

namespace Circulation

open OpeningDay
open Timetable (Fits Upright covered fill)

namespace Span

variable {f : Frame} {windows : Set (Span f)} {all : List (Span f)} {m : Moment f} {c w : Span f}

/-- The times after `m` at which a window starts. -/
def startsAfter (windows : Set (Span f)) (m : Moment f) : Set (Moment f) :=
  {x | m < x ∧ ∃ w ∈ windows, w.start = x}

/-- The times up to `m` at which a window stops. -/
def stopsBefore (windows : Set (Span f)) (m : Moment f) : Set (Moment f) :=
  {x | x ≤ m ∧ ∃ w ∈ windows, w.stop = x}

theorem exists_component_after (hn : ∀ w ∈ all, w.start < w.stop) (hm : m ∉ union all)
    (hw : w ∈ all) (hlt : m < w.start) :
    ∃ s, IsComponent (union all) s ∧ m < s.start ∧ s.start ≤ w.start := by
  obtain ⟨s, hs, hstart, hstop⟩ := exists_merge_of_mem hn hw
  refine ⟨s, (isComponent_iff hn).mpr hs, lt_of_not_ge fun hle => hm ?_, hstart⟩
  rw [← union_merge]
  exact ⟨s, hs, hle, hlt.trans ((hn w hw).trans_le hstop)⟩

theorem exists_component_before (hn : ∀ w ∈ all, w.start < w.stop) (hm : m ∉ union all)
    (hw : w ∈ all) (hle : w.stop ≤ m) :
    ∃ s, IsComponent (union all) s ∧ s.stop ≤ m ∧ w.stop ≤ s.stop := by
  obtain ⟨s, hs, hstart, hstop⟩ := exists_merge_of_mem hn hw
  refine ⟨s, (isComponent_iff hn).mpr hs, le_of_not_gt fun hlt => hm ?_, hstop⟩
  rw [← union_merge]
  exact ⟨s, hs, (hstart.trans (hn w hw).le).trans hle, hlt⟩

/-- The first component after a moment of closed time starts with the next window. -/
theorem IsFirstAfter.isLeast (hn : ∀ w ∈ all, w.start < w.stop) (hm : m ∉ union all)
    (hc : IsFirstAfter (union all) m c) : IsLeast (startsAfter {w | w ∈ all} m) c.start := by
  obtain ⟨hcomponent, hlt, hfirst⟩ := hc
  refine ⟨⟨hlt, (ends_of_mem_merge c ((isComponent_iff hn).mp hcomponent)).1⟩, ?_⟩
  rintro x ⟨hx, w, hw, rfl⟩
  obtain ⟨s, hs, hms, hsw⟩ := exists_component_after hn hm hw hx
  exact (hfirst s hs hms).trans hsw

theorem exists_isFirstAfter (hn : ∀ w ∈ all, w.start < w.stop) (hm : m ∉ union all)
    (h : (startsAfter {w | w ∈ all} m).Nonempty) : ∃ c, IsFirstAfter (union all) m c := by
  obtain ⟨x, hx, w, hw, rfl⟩ := h
  obtain ⟨s, hs, hms, -⟩ := exists_component_after hn hm hw hx
  have hmem : s ∈ (merge all).filter fun s => m < s.start :=
    List.mem_filter.mpr ⟨(isComponent_iff hn).mp hs, by simpa using hms⟩
  obtain ⟨c, hc⟩ := Option.isSome_iff_exists.mp (List.isSome_head?.mpr (List.ne_nil_of_mem hmem))
  rw [← (merge_apart all).isFirstAfter_iff (start_lt_of_mem_merge hn), union_merge] at hc
  exact ⟨c, hc⟩

theorem exists_isFirstAfter_le (hn : ∀ w ∈ all, w.start < w.stop) (hm : m ∉ union all)
    (hc : IsComponent (union all) c) (hmc : m < c.start) :
    ∃ d, IsFirstAfter (union all) m d ∧ d.start ≤ c.start := by
  have hwindow := (ends_of_mem_merge c ((isComponent_iff hn).mp hc)).1
  obtain ⟨d, hd⟩ := exists_isFirstAfter hn hm ⟨c.start, hmc, hwindow⟩
  exact ⟨d, hd, hd.2.2 c hc hmc⟩

/-- Where a component follows, one is the last of the next day. -/
theorem exists_isLastOfNextDay {all : List (Span .utc)} {m : Instant} {first : Span .utc}
    (hn : ∀ w ∈ all, w.start < w.stop) (hfirst : IsFirstAfter (union all) m first) (z : Zone) :
    ∃ c, IsLastOfNextDay z (union all) m c := by
  have hapart := merge_apart all
  have hn' := start_lt_of_mem_merge hn
  rw [← union_merge] at hfirst ⊢
  obtain ⟨o, ho, hlast⟩ := Strategy.exists_lastOfDay? z m hapart hn'
  cases o with
  | some c => exact ⟨c, (hlast c).mpr rfl⟩
  | none =>
    obtain ⟨rest, hrest⟩ := List.head?_eq_some_iff.mp ((hapart.isFirstAfter_iff hn').mp hfirst)
    rw [hrest, List.map_cons] at ho
    cases ho

/-- The last component before a moment of closed time stops with the window that stopped last. -/
theorem IsLastBefore.isGreatest (hn : ∀ w ∈ all, w.start < w.stop) (hm : m ∉ union all)
    (hc : IsLastBefore (union all) m c) : IsGreatest (stopsBefore {w | w ∈ all} m) c.stop := by
  obtain ⟨hcomponent, hle, hlast⟩ := hc
  refine ⟨⟨hle, (ends_of_mem_merge c ((isComponent_iff hn).mp hcomponent)).2⟩, ?_⟩
  rintro x ⟨hx, w, hw, rfl⟩
  obtain ⟨s, hs, hsm, hws⟩ := exists_component_before hn hm hw hx
  exact hws.trans (hlast s hs hsm)

theorem exists_isLastBefore (hn : ∀ w ∈ all, w.start < w.stop) (hm : m ∉ union all)
    (h : (stopsBefore {w | w ∈ all} m).Nonempty) : ∃ c, IsLastBefore (union all) m c := by
  obtain ⟨x, hx, w, hw, rfl⟩ := h
  obtain ⟨s, hs, hsm, -⟩ := exists_component_before hn hm hw hx
  have hmem : s ∈ (merge all).filter fun s => s.stop ≤ m :=
    List.mem_filter.mpr ⟨(isComponent_iff hn).mp hs, by simpa using hsm⟩
  obtain ⟨c, hc⟩ := Option.isSome_iff_exists.mp
    (List.getLast?_isSome.mpr (List.ne_nil_of_mem hmem))
  rw [← (merge_apart all).isLastBefore_iff (start_lt_of_mem_merge hn), union_merge] at hc
  exact ⟨c, hc⟩

end Span

/-! ## Moves to the nearest window -/

/-- An instant in a window stays where it is, and any other one moves to what is due at the best of
the times sought, or nowhere if there is no such time. -/
structure MovesTo (windows : Set (Span .utc)) (requested : Instant) (times : Set Instant)
    (best : Set Instant → Instant → Prop) (due : Instant → Instant) (result : Result Instant) :
    Prop where
  stays : (∃ w ∈ windows, requested ∈ w) → result = .ok requested
  moves : (∀ w ∈ windows, requested ∉ w) → times.Nonempty →
    ∃ x, best times x ∧ result = .ok (due x)
  fails : (∀ w ∈ windows, requested ∉ w) → times = ∅ →
    result = .error (.openPeriodsNotFound requested)

namespace MovesTo

variable {windows others : Set (Span .utc)} {requested : Instant} {times later : Set Instant}
  {best : Set Instant → Instant → Prop} {due : Instant → Instant} {result : Result Instant}

/-- A search for a component answers with the best of the times if the components found lie there
and one is found whenever there is such a time. -/
theorem of_answers (hstays : (∃ w ∈ windows, requested ∈ w) → result = .ok requested)
    (hmem : ∀ x, best times x → x ∈ times)
    (h : (∀ w ∈ windows, requested ∉ w) → ∃ (found : Span .utc → Prop) (time : Span .utc → Instant),
      Answers found (fun c => due (time c)) requested result ∧
        (∀ c, found c → best times (time c)) ∧ (times.Nonempty → ∃ c, found c)) :
    MovesTo windows requested times best due result := by
  refine ⟨hstays, fun hclosed hne => ?_, fun hclosed hnone => ?_⟩
  · obtain ⟨found, time, hanswers, hbest, hexists⟩ := h hclosed
    obtain ⟨c, hc⟩ := hexists hne
    exact ⟨time c, hbest c hc, hanswers.of_found c hc⟩
  · obtain ⟨found, time, hanswers, hbest, -⟩ := h hclosed
    refine hanswers.of_missing fun c hc => ?_
    have htime := hmem _ (hbest c hc)
    rw [hnone] at htime
    exact htime

/-- More windows change nothing if they hold the instant no more than the others do and no better
time comes from them. -/
theorem extend (h : MovesTo windows requested times best due result)
    (hopen : (∃ w ∈ others, requested ∈ w) ↔ ∃ w ∈ windows, requested ∈ w)
    (hbest : (∀ w ∈ others, requested ∉ w) → ∀ x, best times x → best later x)
    (hsub : times ⊆ later)
    (hne : (∀ w ∈ others, requested ∉ w) → later.Nonempty → times.Nonempty) :
    MovesTo others requested later best due result := by
  have hclosed_of : (∀ w ∈ others, requested ∉ w) → ∀ w ∈ windows, requested ∉ w :=
    fun hclosed w hw hm => by
      obtain ⟨v, hv, hmv⟩ := hopen.mpr ⟨w, hw, hm⟩
      exact hclosed v hv hmv
  refine ⟨fun hin => h.stays (hopen.mp hin), fun hclosed hlater => ?_, fun hclosed hnone => ?_⟩
  · obtain ⟨x, hx, hresult⟩ := h.moves (hclosed_of hclosed) (hne hclosed hlater)
    exact ⟨x, hbest hclosed x hx, hresult⟩
  · exact h.fails (hclosed_of hclosed) (Set.subset_eq_empty hsub hnone)

end MovesTo

namespace Strategy

variable {days : List OpeningDay} {zone : Zone} {t : Timetable} {requested : Instant}

/-- What is due at the closing time of a stretch of open hours. -/
def dueAtClosing (zone : Zone) (stop : Instant) : Instant :=
  if (zone.toLocal stop).IsMidnight then stop.addSeconds (-1) else stop

theorem closing_eq (t : Timetable) (c : Span .utc) : closing t c = dueAtClosing t.zone c.stop := rfl

theorem dueAtClosing_of_midnight {z : Zone} {stop : Instant} (h : (z.toLocal stop).IsMidnight) :
    dueAtClosing z stop = ⟨stop.second - 1, stop.nano, stop.nano_lt⟩ := by
  have hleap : ¬ stop.IsLeapSecond := Moment.not_leap_of_nano h.2
  rw [dueAtClosing, if_pos h, Moment.addSeconds_of_not_leap hleap]
  rfl

theorem dueAtClosing_le (z : Zone) (stop : Instant) : dueAtClosing z stop ≤ stop := by
  by_cases h : (z.toLocal stop).IsMidnight
  · rw [dueAtClosing_of_midnight h, Moment.le_def]
    simp only
    omega
  · rw [dueAtClosing, if_neg h]

/-- A whole second before a closing time is no later than what is due at closing. -/
theorem le_dueAtClosing {z : Zone} {m stop : Instant} (hwhole : m.nano = 0) (hlt : m < stop) :
    m ≤ dueAtClosing z stop := by
  by_cases hmidnight : (z.toLocal stop).IsMidnight
  · rw [dueAtClosing_of_midnight hmidnight, Moment.le_def]
    have hnano : stop.nano = 0 := hmidnight.2
    rw [Moment.lt_def] at hlt
    simp only
    omega
  · rw [dueAtClosing, if_neg hmidnight]
    exact hlt.le

/-- What stops later than a window is due later: no window stops in the second before midnight. -/
theorem dueAtClosing_mono {z : Zone} {offset : Int} (hz : z.IsFixed offset) {d : OpeningDay}
    (hd : d.IsInner z) {w : Span .utc} (hw : d.HasSpan w) {stop : Instant} (hle : w.stop ≤ stop) :
    dueAtClosing z w.stop ≤ dueAtClosing z stop := by
  rcases hle.eq_or_lt with heq | hlt
  · rw [heq]
  refine (dueAtClosing_le z w.stop).trans ?_
  by_cases hmidnight : (z.toLocal stop).IsMidnight
  · have hsecond := second_stop_le (hw.toLocal_mem hz hd.zone_eq hd.first_lt)
    have hlocal := hz.toLocal_lt_iff.mpr hlt
    rw [dueAtClosing_of_midnight hmidnight, Moment.le_def]
    simp only [Moment.lt_def, Moment.IsMidnight, Zone.toLocal, hz.offsetAt_eq] at *
    omega
  · rwa [dueAtClosing, if_neg hmidnight]

/-- The timetable shows the windows, none of which is empty or reversed, as its open time. -/
structure FromWindows (t : Timetable) (all : List (Span .utc)) : Prop where
  upright : ∀ w ∈ all, w.start < w.stop
  filled : ∃ cursor finish, Fits cursor finish (Span.merge all) ∧
    t.intervals = fill cursor finish (Span.merge all)

theorem FromWindows.movesToComponents {all : List (Span .utc)} (h : FromWindows t all)
    (requested : Instant) : MovesToComponents t (Span.union all) requested := by
  obtain ⟨cursor, finish, hfits, ht⟩ := h.filled
  have hmoves := movesToComponents_of_fits hfits ht requested
  rwa [Span.union_merge] at hmoves

/-- An instant in a closed interval is in no window. -/
theorem FromWindows.notMem_of_closed {all : List (Span .utc)} (h : FromWindows t all)
    {i : Interval} (hi : i ∈ t.intervals) (hclosed : i.isOpen = false)
    (hrequested : requested ∈ i.toSpan) : requested ∉ Span.union all := by
  obtain ⟨cursor, finish, hfits, ht⟩ := h.filled
  rw [← Span.union_merge, ← Timetable.mem_fill_isOpen_iff cursor finish, ← ht]
  rintro ⟨j, hj, hopen, hmem⟩
  have heq := Timetable.Tiled.eq_of_mem (ht ▸ hfits.tiled_fill) hi hj hrequested hmem
  rw [heq, hopen] at hclosed
  cases hclosed

theorem FromWindows.union_subset_covered {all : List (Span .utc)} (h : FromWindows t all) :
    Span.union all ⊆ covered t.intervals := by
  obtain ⟨cursor, finish, -, ht⟩ := h.filled
  intro m hm
  rw [← Span.union_merge, ← Timetable.mem_fill_isOpen_iff cursor finish, ← ht] at hm
  obtain ⟨i, hi, -, hmi⟩ := hm
  exact ⟨i, hi, hmi⟩

theorem FromWindows.mem_covered_of_between {all : List (Span .utc)} (h : FromWindows t all)
    {a b m : Instant} (ha : a ∈ covered t.intervals) (hb : b ∈ covered t.intervals) (ham : a ≤ m)
    (hmb : m ≤ b) : m ∈ covered t.intervals := by
  obtain ⟨cursor, finish, hfits, ht⟩ := h.filled
  rw [ht, hfits.mem_covered_fill] at ha hb ⊢
  exact ⟨ha.1.trans ham, hmb.trans_lt hb.2⟩

/-- The open intervals are the components of the open time. -/
theorem FromWindows.mem_intervals_iff {all : List (Span .utc)} (h : FromWindows t all)
    {i : Interval} : i ∈ t.intervals ∧ i.isOpen = true ↔
      ∃ c, Span.IsComponent (Span.union all) c ∧ i = .ofOpen c := by
  obtain ⟨cursor, finish, -, ht⟩ := h.filled
  rw [← List.mem_filter (p := fun i : Interval => i.isOpen), ht, Timetable.filter_isOpen_fill,
    List.mem_map]
  simp only [Span.isComponent_iff h.upright, eq_comm]

/-- The move to the next opening, with or without an offset. -/
theorem FromWindows.exists_beginningOfNextOpenHours_eq {all : List (Span .utc)}
    (h : FromWindows t all) (hcovered : requested ∈ covered t.intervals)
    (hout : requested ∉ Span.union all) (offset : Option Period) :
    ∃ o : Option (Span .utc), (∀ c, Span.IsFirstAfter (Span.union all) requested c ↔ o = some c) ∧
      (beginningOfNextOpenHours offset).dueDate t requested =
        match o with
        | some c => openingWithOffset t offset (.ofOpen c)
        | none => .error (.openPeriodsNotFound requested) := by
  obtain ⟨cursor, finish, hfits, ht⟩ := h.filled
  rw [← Span.union_merge] at hout ⊢
  obtain ⟨p, hmove, -, hafter⟩ := exists_leaveClosedTime_eq hfits ht hcovered hout
  refine ⟨_, fun c => hfits.apart.isFirstAfter_iff hfits.start_lt, ?_⟩
  simp only [dueDate, hmove, Timetable.nextOpen?_eq, hafter, List.head?_map]
  cases ((Span.merge all).filter (requested < ·.start)).head? <;> rfl

/-- The timetable of some days comes from the list of their windows. -/
theorem exists_fromWindows (ht : Timetable.ofDays days zone = .ok t) (hup : Upright days) :
    ∃ all, windowsOf {d | d ∈ days} = {w | w ∈ all} ∧ t.zone = zone ∧ FromWindows t all := by
  obtain ⟨spans, range, hspans, hfits, rfl, -⟩ := Timetable.exists_fill_of_ofDays ht hup
  obtain ⟨all, hall, rfl⟩ := Timetable.exists_windows_of_openTime hspans
  exact ⟨all, (Set.ext hall).symm, rfl, fun w hw => hup w ((hall w).mp hw), _, _, hfits, rfl⟩

theorem openMoments_eq_union {days : Set OpeningDay} {all : List (Span .utc)}
    (h : windowsOf days = {w | w ∈ all}) : openMoments days = Span.union all := by
  rw [openMoments, h]
  rfl

theorem beginningOfNextOpenHours_movesTo (ht : Timetable.ofDays days zone = .ok t)
    (hup : Upright days) (hcovered : requested ∈ covered t.intervals) :
    MovesTo (windowsOf {d | d ∈ days}) requested
      (Span.startsAfter (windowsOf {d | d ∈ days}) requested) IsLeast id
      ((beginningOfNextOpenHours none).dueDate t requested) := by
  obtain ⟨all, hall, -, hfrom⟩ := exists_fromWindows ht hup
  have hmoves := hfrom.movesToComponents requested
  rw [hall]
  refine .of_answers (fun hopen => hmoves.stays hopen _ rfl) (fun x hx => hx.1) fun hclosed => ?_
  have hout : requested ∉ Span.union all := fun ⟨w, hw, hm⟩ => hclosed w hw hm
  exact ⟨_, Span.start, hmoves.beginningOfNextOpenHours hcovered hout,
    fun c hc => hc.isLeast hfrom.upright hout, Span.exists_isFirstAfter hfrom.upright hout⟩

theorem endOfPreviousOpenDay_movesTo (ht : Timetable.ofDays days zone = .ok t)
    (hup : Upright days) (hcovered : requested ∈ covered t.intervals) :
    MovesTo (windowsOf {d | d ∈ days}) requested
      (Span.stopsBefore (windowsOf {d | d ∈ days}) requested) IsGreatest (dueAtClosing zone)
      (endOfPreviousOpenDay.dueDate t requested) := by
  obtain ⟨all, hall, rfl, hfrom⟩ := exists_fromWindows ht hup
  have hmoves := hfrom.movesToComponents requested
  rw [hall]
  refine .of_answers (fun hopen => hmoves.stays hopen _ rfl) (fun x hx => hx.1) fun hclosed => ?_
  have hout : requested ∉ Span.union all := fun ⟨w, hw, hm⟩ => hclosed w hw hm
  exact ⟨_, Span.stop, hmoves.endOfPreviousOpenDay hcovered hout,
    fun c hc => hc.isGreatest hfrom.upright hout, Span.exists_isLastBefore hfrom.upright hout⟩

/-! ## Moves to the next open time -/

/-- Either end of the next open time is found if any window starts later, and not otherwise. -/
theorem FromWindows.exists_answers {all : List (Span .utc)} (h : FromWindows t all)
    (hcovered : requested ∈ covered t.intervals) (hout : requested ∉ Span.union all)
    {s : Strategy} (hs : s = endOfNextOpenDay ∨ s = beginningOfNextOpenHours none) :
    ∃ found due, Answers found due requested (s.dueDate t requested) ∧
      ((∃ c, found c) ↔ (Span.startsAfter {w | w ∈ all} requested).Nonempty) := by
  have hmoves := h.movesToComponents requested
  rcases hs with rfl | rfl
  · refine ⟨_, _, hmoves.endOfNextOpenDay hcovered hout, ?_, fun hne => ?_⟩
    · rintro ⟨c, -, first, hfirst, -⟩
      exact ⟨_, (hfirst.isLeast h.upright hout).1⟩
    · obtain ⟨first, hfirst⟩ := Span.exists_isFirstAfter h.upright hout hne
      exact Span.exists_isLastOfNextDay h.upright hfirst t.zone
  · refine ⟨_, _, hmoves.beginningOfNextOpenHours hcovered hout, ?_,
      Span.exists_isFirstAfter h.upright hout⟩
    rintro ⟨c, hc⟩
    exact ⟨_, (hc.isLeast h.upright hout).1⟩

/-- A date moves to the next open time, or stays in the current one, if any window stops later, and
nowhere otherwise. -/
theorem dueDate_nextOpenTime (ht : Timetable.ofDays days zone = .ok t) (hup : Upright days)
    (hcovered : requested ∈ covered t.intervals) {s : Strategy}
    (hs : s = endOfNextOpenDay ∨ s = beginningOfNextOpenHours none) :
    ((∃ w ∈ windowsOf {d | d ∈ days}, requested < w.stop) →
      ∃ due, s.dueDate t requested = .ok due) ∧
    ((∀ w ∈ windowsOf {d | d ∈ days}, w.stop ≤ requested) →
      s.dueDate t requested = .error (.openPeriodsNotFound requested)) := by
  obtain ⟨all, hall, -, hfrom⟩ := exists_fromWindows ht hup
  have hcalendar : s.requiresCalendar = true := by rcases hs with rfl | rfl <;> rfl
  rw [hall]
  by_cases hopen : requested ∈ Span.union all
  · refine ⟨fun _ => ⟨_, (hfrom.movesToComponents requested).stays hopen s hcalendar⟩, ?_⟩
    intro hover
    obtain ⟨w, hw, hm⟩ := hopen
    exact absurd hm.2 (hover w hw).not_gt
  · obtain ⟨found, due, hanswers, hfound⟩ := hfrom.exists_answers hcovered hopen hs
    refine ⟨?_, fun hover => hanswers.of_missing fun c hc => ?_⟩
    · rintro ⟨w, hw, hstop⟩
      have hstart : requested < w.start := lt_of_not_ge fun hle => hopen ⟨w, hw, hle, hstop⟩
      obtain ⟨c, hc⟩ := hfound.mpr ⟨_, hstart, w, hw, rfl⟩
      exact ⟨_, hanswers.of_found c hc⟩
    · obtain ⟨x, hstart, w, hw, rfl⟩ := hfound.mp ⟨c, hc⟩
      exact (hstart.trans (hfrom.upright w hw)).not_ge (hover w hw)

end Strategy

end Circulation
