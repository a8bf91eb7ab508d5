import Circulation.Proofs.Calendar.Reach

/-!
# Looking ahead with fewer windows

A timetable of some windows that look ahead of an instant is as good as one of all windows for the
strategies that move forward, but for closing times: open hours that go on in the other windows end
too early.
-/

namespace Circulation

open OpeningDay
open Timetable (covered)

/-! ## Components ahead -/

namespace LooksAhead

variable {z : Zone} {offset : Int} {m y : Instant} {near all : List (Span .utc)}
  {c d first w : Span .utc}

theorem union_subset (h : LooksAhead z m {w | w ∈ near} {w | w ∈ all}) :
    Span.union near ⊆ Span.union all :=
  fun _ ⟨w, hw, hy⟩ => ⟨w, h.subset w hw, hy⟩

theorem mem_union_iff (h : LooksAhead z m {w | w ∈ near} {w | w ∈ all}) (hz : z.IsFixed offset) :
    m ∈ Span.union near ↔ m ∈ Span.union all :=
  (h.exists_mem_iff hz).symm

theorem upright (h : LooksAhead z m {w | w ∈ near} {w | w ∈ all})
    (hn : ∀ w ∈ all, w.start < w.stop) : ∀ w ∈ near, w.start < w.stop :=
  fun w hw => hn w (h.subset w hw)

/-- The first component after the instant starts where it does among fewer windows. -/
theorem exists_isFirstAfter (h : LooksAhead z m {w | w ∈ near} {w | w ∈ all})
    (hz : z.IsFixed offset) (hn : ∀ w ∈ all, w.start < w.stop) (hm : m ∉ Span.union all)
    (hc : Span.IsFirstAfter (Span.union near) m c) :
    ∃ d, Span.IsFirstAfter (Span.union all) m d ∧ d.start = c.start := by
  have hleast := h.isLeast_startsAfter hz
    (hc.isLeast (h.upright hn) (mt (h.mem_union_iff hz).mp hm))
  obtain ⟨d, hd⟩ := Span.exists_isFirstAfter hn hm ⟨_, hleast.1⟩
  exact ⟨d, hd, (hd.isLeast hn hm).unique hleast⟩

theorem not_isFirstAfter (h : LooksAhead z m {w | w ∈ near} {w | w ∈ all})
    (hz : z.IsFixed offset) (hn : ∀ w ∈ all, w.start < w.stop) (hm : m ∉ Span.union all)
    (hnone : ∀ c, ¬ Span.IsFirstAfter (Span.union near) m c) (d : Span .utc) :
    ¬ Span.IsFirstAfter (Span.union all) m d := by
  intro hd
  have hne := h.startsAfter_nonempty hz ⟨_, (hd.isLeast hn hm).1⟩
  obtain ⟨c, hc⟩ := Span.exists_isFirstAfter (h.upright hn)
    (mt (h.mem_union_iff hz).mp hm) hne
  exact hnone c hc

/-- Up to the end of the date on which the next window starts, all open time is near. -/
theorem mem_union_of_date (h : LooksAhead z m {w | w ∈ near} {w | w ∈ all})
    (hz : z.IsFixed offset) (hn : ∀ w ∈ all, w.start < w.stop) (hm : m ∉ Span.union all)
    (hfirst : Span.IsFirstAfter (Span.union near) m first) (hy : y ∈ Span.union all) (hmy : m < y)
    (hdate : z.localDate y ≤ z.localDate first.start) : y ∈ Span.union near := by
  obtain ⟨w, hw, hyw⟩ := hy
  rcases h.ahead w hw with hnear | ⟨-, hstop⟩ | ⟨v, hv, hmv, hlater⟩
  · exact ⟨w, hnear, hyw⟩
  · exact absurd (hmy.trans hyw.2) hstop.asymm
  · have hle := (hfirst.isLeast (h.upright hn)
      (mt (h.mem_union_iff hz).mp hm)).2 ⟨hmv, v, hv, rfl⟩
    have hlt := (hz.localDate_mono hle).trans_lt (hlater.trans_le (hz.localDate_mono hyw.1))
    exact absurd hdate hlt.not_ge

/-- The components that start on the date of the first one are those among fewer windows, as far as
their starts go. -/
theorem exists_component_of_date (h : LooksAhead z m {w | w ∈ near} {w | w ∈ all})
    (hz : z.IsFixed offset) (hn : ∀ w ∈ all, w.start < w.stop) (hm : m ∉ Span.union all)
    (hfirst : Span.IsFirstAfter (Span.union near) m first) :
    (∀ c, Span.IsComponent (Span.union near) c → m < c.start →
      z.localDate c.start ≤ z.localDate first.start →
        ∃ d, Span.IsComponent (Span.union all) d ∧ d.start = c.start ∧ c.stop ≤ d.stop) ∧
    ∀ d, Span.IsComponent (Span.union all) d → m < d.start →
      z.localDate d.start ≤ z.localDate first.start →
        ∃ c, Span.IsComponent (Span.union near) c ∧ c.start = d.start := by
  refine ⟨fun c hc hmc hdate => ?_, fun d hd hmd hdate => ?_⟩
  · obtain ⟨d, hd, hstart, hstop⟩ :=
      Span.exists_component_of_isRun hn (hc.toIsRun.mono h.union_subset)
    have hin : c.start ∈ c := ⟨le_rfl, hc.start_lt⟩
    have hin' : c.start ∈ d := ⟨hstart, hc.start_lt.trans_le hstop⟩
    refine ⟨d, hd, hd.start_eq hc h.union_subset hin hin' hm hmc fun x hx hmx hxc => ?_, hstop⟩
    exact h.mem_union_of_date hz hn hm hfirst hx hmx ((hz.localDate_mono hxc).trans hdate)
  · have hin : d.start ∈ d := ⟨le_rfl, hd.start_lt⟩
    have hmem := h.mem_union_of_date hz hn hm hfirst (hd.subset _ hin) hmd hdate
    obtain ⟨c, hc, hdc⟩ := Span.exists_component_of_mem (h.upright hn) hmem
    exact ⟨c, hc, le_antisymm hdc.1 (hd.holds (hc.toIsRun.mono h.union_subset) hin hdc).1⟩

theorem exists_isLastOfNextDay (h : LooksAhead z m {w | w ∈ near} {w | w ∈ all})
    (hz : z.IsFixed offset) (hn : ∀ w ∈ all, w.start < w.stop) (hm : m ∉ Span.union all)
    (hc : Span.IsLastOfNextDay z (Span.union near) m c) :
    ∃ d, Span.IsLastOfNextDay z (Span.union all) m d ∧ d.start = c.start := by
  obtain ⟨hcomponent, first, hfirst, hle, hsame, hnext⟩ := hc
  obtain ⟨hsmaller, hlarger⟩ := h.exists_component_of_date hz hn hm hfirst
  have hmc : m < c.start := hfirst.2.1.trans_le hle
  have hcdate := hsame c hcomponent hmc le_rfl
  obtain ⟨d, hd, hstart, hstop⟩ := hsmaller c hcomponent hmc hcdate.le
  obtain ⟨first', hfirst', hfirstStart⟩ := h.exists_isFirstAfter hz hn hm hfirst
  refine ⟨d, ⟨hd, first', hfirst', hfirstStart ▸ hstart ▸ hle, fun e he hme hed => ?_,
    fun e he hdate => ?_⟩, hstart⟩
  · refine le_antisymm ?_ (hz.localDate_mono (hfirst'.2.2 e he hme))
    rw [hfirstStart, ← hcdate, ← hstart]
    exact hz.localDate_mono hed
  · -- A component that followed on the same date would do so among fewer windows, too.
    obtain ⟨hecomponent, hde, -⟩ := he
    have hce : c.stop < e.start := hstop.trans_lt hde
    have hme : m < e.start := hmc.trans (hcomponent.start_lt.trans hce)
    rw [hfirstStart] at hdate
    obtain ⟨e', he', hestart⟩ := hlarger e hecomponent hme hdate.le
    obtain ⟨g, hg, hge⟩ := Span.exists_isFirstAfter_le (h.upright hn)
      (hcomponent.stop_notMem (h.upright hn)) he' (hestart ▸ hce)
    have hmg : m < g.start := hmc.trans (hcomponent.start_lt.trans hg.2.1)
    refine hnext g hg (le_antisymm ?_ (hz.localDate_mono (hfirst.2.2 g hg.1 hmg)))
    exact hdate ▸ hz.localDate_mono (hge.trans hestart.le)

/-- Components that start together stop together, unless the one of fewer windows goes on. -/
theorem stop_eq (h : LooksAhead z m {w | w ∈ near} {w | w ∈ all})
    (hc : Span.IsComponent (Span.union near) c) (hd : Span.IsComponent (Span.union all) d)
    (hstart : d.start = c.start) (hstop : c.stop ∉ Span.union all) : d.stop = c.stop := by
  have hin : c.start ∈ d := ⟨hstart.le, hstart ▸ hd.start_lt⟩
  exact hd.stop_eq hc h.union_subset ⟨le_rfl, hc.start_lt⟩ hin hstop

end LooksAhead

/-! ## Strategies -/

/-- Two searches agree if they find components that stop together, or neither finds one. -/
theorem Answers.eq_of_stops {found found' : Span .utc → Prop} {due : Instant → Instant}
    {instant : Instant} {result result' : Result Instant}
    (h : Answers found (fun c => due c.stop) instant result)
    (h' : Answers found' (fun c => due c.stop) instant result')
    (hfound : ∀ c, found c → ∃ d, found' d ∧ (result = .ok (due c.stop) → d.stop = c.stop))
    (hmissing : (∀ c, ¬ found c) → ∀ d, ¬ found' d) : result = result' := by
  by_cases hexists : ∃ c, found c
  · obtain ⟨c, hc⟩ := hexists
    obtain ⟨d, hd, hstop⟩ := hfound c hc
    rw [h'.of_found d hd, hstop (h.of_found c hc), h.of_found c hc]
  · have hnone := not_exists.mp hexists
    rw [h.of_missing hnone, h'.of_missing (hmissing hnone)]

namespace Strategy

variable {z : Zone} {offset : Int} {t t' : Timetable} {near all : List (Span .utc)}
  {requested now : Instant} {c d : Span .utc}

/-- The strategies that look for open time after an instant. -/
def movesForward : Strategy → Bool
  | endOfNextOpenDay | beginningOfNextOpenHours _ | endOfCurrentHours _ => true
  | _ => false

theorem requiresCalendar_of_movesForward {s : Strategy} (h : s.movesForward = true) :
    s.requiresCalendar = true := by
  cases s <;> first | rfl | cases h

/-- Openings that start together give the same due date with an offset if the closing time is the
same, or if it is later for one and does not bound the other. -/
theorem openingWithOffset_eq (hzone : t'.zone = t.zone) (hstart : d.start = c.start)
    (period : Option Period)
    (hclosing : closing t c ≤ closing t d)
    (hstop : openingWithOffset t period (.ofOpen c) = .ok (closing t c) → d.stop = c.stop) :
    openingWithOffset t period (.ofOpen c) = openingWithOffset t' period (.ofOpen d) := by
  have hclosing' : t'.closingTime (.ofOpen d) = closing t d := by
    rw [closing_eq, ← hzone]
    rfl
  unfold openingWithOffset at hstop ⊢
  rw [hclosing', hzone, show (Interval.ofOpen d).start = (Interval.ofOpen c).start from hstart]
  cases hperiod : period.filter (!·.isZero) with
  | none => rfl
  | some p =>
    simp only [hperiod] at hstop ⊢
    cases hshifted : p.plusDate t.zone (Interval.ofOpen c).start with
    | error e => rfl
    | ok shifted =>
      simp only [hshifted, Result.ok_bind] at hstop ⊢
      show Except.ok (min shifted (closing t c)) = Except.ok (min shifted (closing t d))
      rcases le_or_gt (closing t c) shifted with hle | hlt
      · have hstops := hstop (congrArg Except.ok (min_eq_right hle))
        rw [closing_eq, closing_eq, hstops]
      · rw [min_eq_left hlt.le, min_eq_left (hlt.le.trans hclosing)]

/-- The first timetable shows near windows in the zone and the second one all windows. -/
structure Extends (z : Zone) (near all : List (Span .utc)) (t t' : Timetable) : Prop where
  fromNear : FromWindows t near
  fromAll : FromWindows t' all
  zone_eq : t.zone = z
  zone_eq' : t'.zone = z

/-- Both timetables hold the instant, and the near windows look ahead of it. -/
structure SeesAhead (z : Zone) (near all : List (Span .utc)) (t t' : Timetable) (m : Instant) :
    Prop where
  ahead : LooksAhead z m {w | w ∈ near} {w | w ∈ all}
  held : m ∈ covered t.intervals
  held' : m ∈ covered t'.intervals

/-- Hours of `u` whose closing time is the due date do not go on in `v`. -/
def EndsWithAll (z : Zone) (u v : Set Instant) (result : Result Instant) : Prop :=
  ∀ c, Span.IsComponent u c → result = .ok (dueAtClosing z c.stop) → c.stop ∉ v

/-- Hours do not go on if they are among the hours of all days as well. -/
theorem endsWithAll_of_openTime {days all : List OpeningDay} {spans spans' : List (Span .utc)}
    (h : Timetable.openTime days = .ok spans) (h' : Timetable.openTime all = .ok spans')
    (hn : ∀ s ∈ spans', s.start < s.stop) (hsub : spans ⊆ spans') (z : Zone)
    (result : Result Instant) :
    EndsWithAll z (openMoments {d | d ∈ days}) (openMoments {d | d ∈ all}) result := by
  intro c hc _
  rw [← Timetable.union_of_openTime h] at hc
  rw [← Timetable.union_of_openTime h']
  have hc' :=
    ((Timetable.apart_of_openTime h).mem_iff_isComponent fun s hs => hn s (hsub hs)).mpr hc
  exact (Timetable.apart_of_openTime h').stop_notMem_union hn (hsub hc')

theorem Extends.closing_eq (h : Extends z near all t t') :
    closing t = (fun c => dueAtClosing z c.stop) ∧
      closing t' = fun c => dueAtClosing z c.stop := by
  refine ⟨funext fun c => ?_, funext fun c => ?_⟩
  · rw [Strategy.closing_eq, h.zone_eq]
  · rw [Strategy.closing_eq, h.zone_eq']

theorem Extends.endOfNextOpenDay_eq (h : Extends z near all t t') (hz : z.IsFixed offset)
    (hsees : SeesAhead z near all t t' requested) (hout : requested ∉ Span.union all)
    (hends : EndsWithAll z (Span.union near) (Span.union all)
      (endOfNextOpenDay.dueDate t requested)) :
    endOfNextOpenDay.dueDate t requested = endOfNextOpenDay.dueDate t' requested := by
  have hn := h.fromAll.upright
  have hout' := mt (hsees.ahead.mem_union_iff hz).mp hout
  have hanswers := (h.fromNear.movesToComponents requested).endOfNextOpenDay hsees.held hout'
  have hanswers' := (h.fromAll.movesToComponents requested).endOfNextOpenDay hsees.held' hout
  rw [h.zone_eq, h.closing_eq.1] at hanswers
  rw [h.zone_eq', h.closing_eq.2] at hanswers'
  refine hanswers.eq_of_stops hanswers' (fun c hc => ?_) ?_
  · obtain ⟨d, hd, hstart⟩ := hsees.ahead.exists_isLastOfNextDay hz hn hout hc
    exact ⟨d, hd, fun hresult => hsees.ahead.stop_eq hc.1 hd.1 hstart (hends c hc.1 hresult)⟩
  · rintro hnone d ⟨-, first, hfirst, -⟩
    refine hsees.ahead.not_isFirstAfter hz hn hout (fun c hc => ?_) first hfirst
    obtain ⟨last, hlast⟩ := Span.exists_isLastOfNextDay h.fromNear.upright hc z
    exact hnone last hlast

theorem Extends.beginningOfNextOpenHours_eq (h : Extends z near all t t') (hz : z.IsFixed offset)
    (hsees : SeesAhead z near all t t' requested) (hout : requested ∉ Span.union all)
    (hmono : ∀ w ∈ near, ∀ stop, w.stop ≤ stop →
      dueAtClosing z w.stop ≤ dueAtClosing z stop) (period : Option Period)
    (hends : EndsWithAll z (Span.union near) (Span.union all)
      ((beginningOfNextOpenHours period).dueDate t requested)) :
    (beginningOfNextOpenHours period).dueDate t requested =
      (beginningOfNextOpenHours period).dueDate t' requested := by
  have hn := h.fromAll.upright
  have hout' := mt (hsees.ahead.mem_union_iff hz).mp hout
  obtain ⟨o, ho, heq⟩ :=
    h.fromNear.exists_beginningOfNextOpenHours_eq hsees.held hout' period
  obtain ⟨o', ho', heq'⟩ :=
    h.fromAll.exists_beginningOfNextOpenHours_eq hsees.held' hout period
  rw [heq] at hends ⊢
  rw [heq']
  cases o with
  | none =>
    have hnone := hsees.ahead.not_isFirstAfter hz hn hout fun c hc => nomatch (ho c).mp hc
    cases o' with
    | none => rfl
    | some d => exact absurd ((ho' d).mpr rfl) (hnone d)
  | some c =>
    have hc := (ho c).mpr rfl
    obtain ⟨d, hd, hstart⟩ := hsees.ahead.exists_isFirstAfter hz hn hout hc
    obtain rfl := (ho' d).mp hd
    have hle := (hd.1.holds (hc.1.toIsRun.mono hsees.ahead.union_subset)
      ⟨hstart.le, hstart ▸ hd.1.start_lt⟩ ⟨le_rfl, hc.1.start_lt⟩).2
    refine openingWithOffset_eq (h.zone_eq'.trans h.zone_eq.symm) hstart period ?_ ?_
    · obtain ⟨w, hw, hwc⟩ := (Span.ends_of_mem_merge c
        ((Span.isComponent_iff h.fromNear.upright).mp hc.1)).2
      rw [h.closing_eq.1]
      show dueAtClosing z c.stop ≤ dueAtClosing z d.stop
      rw [← hwc]
      exact hmono w hw d.stop (hwc.trans_le hle)
    · rw [h.closing_eq.1]
      exact fun hresult => hsees.ahead.stop_eq hc.1 hd.1 hstart (hends c hc.1 hresult)

theorem Extends.endOfCurrentHours_eq (h : Extends z near all t t') (hz : z.IsFixed offset)
    (hsees : SeesAhead z near all t t' requested) (hout : requested ∉ Span.union all)
    (hnow : SeesAhead z near all t t' now)
    (hends : EndsWithAll z (Span.union near) (Span.union all)
      ((endOfCurrentHours now).dueDate t requested)) :
    (endOfCurrentHours now).dueDate t requested = (endOfCurrentHours now).dueDate t' requested := by
  have hn := h.fromAll.upright
  have hout' := mt (hsees.ahead.mem_union_iff hz).mp hout
  have hmoves := h.fromNear.movesToComponents requested
  have hmoves' := h.fromAll.movesToComponents requested
  by_cases hopen : now ∈ Span.union all
  · obtain ⟨c, hc, hnowc⟩ := Span.exists_component_of_mem h.fromNear.upright
      ((hnow.ahead.mem_union_iff hz).mpr hopen)
    obtain ⟨d, hd, hnowd⟩ := Span.exists_component_of_mem hn hopen
    have hresult := hmoves.nowOpen hsees.held hout' now c hc hnowc
    have hresult' := hmoves'.nowOpen hsees.held' hout now d hd hnowd
    rw [h.closing_eq.1] at hresult
    rw [h.closing_eq.2] at hresult'
    have hstop := hd.stop_eq hc hsees.ahead.union_subset hnowc hnowd (hends c hc hresult)
    rw [hresult, hresult']
    show Except.ok (dueAtClosing z c.stop) = Except.ok (dueAtClosing z d.stop)
    rw [hstop]
  · have hclosed := mt (hnow.ahead.mem_union_iff hz).mp hopen
    have hanswers := hmoves.nowClosed hsees.held hout' now hnow.held hclosed
    have hanswers' := hmoves'.nowClosed hsees.held' hout now hnow.held' hopen
    rw [h.closing_eq.1] at hanswers
    rw [h.closing_eq.2] at hanswers'
    refine hanswers.eq_of_stops hanswers' (fun c hc => ?_)
      (hnow.ahead.not_isFirstAfter hz hn hopen)
    obtain ⟨d, hd, hstart⟩ := hnow.ahead.exists_isFirstAfter hz hn hopen hc
    exact ⟨d, hd, fun hresult => hnow.ahead.stop_eq hc.1 hd.1 hstart (hends c hc.1 hresult)⟩

/-- A strategy that moves forward does the same with the timetables of the near windows and of all
windows, unless the near ones make the due date a closing time at which other windows go on. -/
theorem Extends.dueDate_eq {strategy : Strategy} (h : Extends z near all t t')
    (hz : z.IsFixed offset) (hforward : strategy.movesForward = true)
    (hsees : ∀ m, m = requested ∨ strategy = endOfCurrentHours m → SeesAhead z near all t t' m)
    (hmono : ∀ w ∈ near, ∀ stop, w.stop ≤ stop →
      dueAtClosing z w.stop ≤ dueAtClosing z stop)
    (hends : EndsWithAll z (Span.union near) (Span.union all) (strategy.dueDate t requested)) :
    strategy.dueDate t requested = strategy.dueDate t' requested := by
  have hrequested := hsees requested (.inl rfl)
  by_cases hopen : requested ∈ Span.union all
  · have hcalendar := requiresCalendar_of_movesForward hforward
    rw [(h.fromNear.movesToComponents requested).stays
        ((hrequested.ahead.mem_union_iff hz).mpr hopen) strategy hcalendar,
      (h.fromAll.movesToComponents requested).stays hopen strategy hcalendar]
  · cases strategy with
    | keepCurrentDate zone => cases hforward
    | keepCurrentDateTime => cases hforward
    | endOfPreviousOpenDay => cases hforward
    | endOfNextOpenDay => exact h.endOfNextOpenDay_eq hz hrequested hopen hends
    | beginningOfNextOpenHours period =>
      exact h.beginningOfNextOpenHours_eq hz hrequested hopen hmono period hends
    | endOfCurrentHours now =>
      exact h.endOfCurrentHours_eq hz hrequested hopen (hsees now (.inr rfl)) hends

end Strategy

end Circulation
