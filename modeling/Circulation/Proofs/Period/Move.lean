import Circulation.Period
import Circulation.Proofs.Time.Month
import Circulation.Proofs.Zone.Fixed
import Circulation.Zone.Named

/-!
# There and back by periods

Minutes and hours are added to an instant, while days, weeks and months move the date that the
zone's clock shows and keep the time of day. What a period takes away it gives back as far as the
calendar and the clock allow: the clock has to show the local time in between, the instant has to be
the first of its local time, and the month in between has to be long enough.
-/

namespace Circulation

namespace Moment

variable {f : Frame} {d e : Date}

/-- The moment at the same time of day on a date. -/
def onDate (m : Moment f) (d : Date) : Moment f :=
  ⟨m.second + 86400 * (d.day - m.date.day), m.nano, m.nano_lt⟩

@[simp] theorem date_onDate (m : Moment f) (d : Date) : (m.onDate d).date = d := by
  rw [Date.ext_iff]
  simp only [onDate, date]
  omega

@[simp] theorem onDate_date (m : Moment f) : m.onDate m.date = m := by
  rw [ext_iff']
  simp only [onDate]
  exact ⟨by omega, trivial⟩

@[simp] theorem onDate_onDate (m : Moment f) : (m.onDate d).onDate e = m.onDate e := by
  rw [ext_iff', onDate, date_onDate]
  simp only [onDate]
  exact ⟨by omega, trivial⟩

theorem secondOfDay_onDate (m : Moment f) (d : Date) :
    (m.onDate d).secondOfDay = m.secondOfDay := by
  simp only [secondOfDay, onDate]
  omega

theorem addSeconds_neg_add {m : Moment f} (hleap : ¬ m.IsLeapSecond) (n : Int) :
    (m.addSeconds (-n)).addSeconds n = m := by
  have hback : ¬ (⟨m.second + -n, m.nano, m.nano_lt⟩ : Moment f).IsLeapSecond := hleap
  rw [addSeconds_of_not_leap hleap, addSeconds_of_not_leap hback, ext_iff']
  exact ⟨Int.neg_add_cancel_right m.second n, rfl⟩

theorem inRange_onDate {m : Moment f} : (m.onDate d).InRange ↔ d.InRange := by
  rw [InRange, date_onDate]

end Moment

namespace PeriodUnit

/-- The date `n` units later, for a unit that moves the date. -/
def dateAfter (unit : PeriodUnit) (d : Date) (n : Int) : Date :=
  match unit with
  | .months => d.addMonths n
  | .weeks => d.addDays (7 * n)
  | _ => d.addDays n

variable {a b d : Date} {m n : Int}

theorem lengthInSeconds_pos (unit : PeriodUnit) : 0 < 60 * unit.lengthInMinutes := by
  cases unit <;> decide

theorem dateAfter_mono (unit : PeriodUnit) (h : a ≤ b) (hmn : m ≤ n) :
    unit.dateAfter a m ≤ unit.dateAfter b n := by
  cases unit with
  | months => exact Date.addMonths_mono h hmn
  | minutes | hours | days | weeks =>
    rw [Date.le_def] at *
    simp only [dateAfter, Date.addDays]
    omega

theorem lt_dateAfter (unit : PeriodUnit) (d : Date) (hn : 0 < n) : d < unit.dateAfter d n := by
  rw [Date.lt_def]
  cases unit with
  | months =>
    have hbounds := Date.addMonths_bounds d hn.le
    simp only [dateAfter]
    omega
  | minutes | hours | days | weeks =>
    simp only [dateAfter, Date.addDays]
    omega

end PeriodUnit

namespace Period

variable {p : Period} {z : Zone} {l : LocalTime} {start before after t : Instant} {n : Int}

/-! ## One move -/

theorem moveDate_eq (hlong : p.isShortTerm = false) (hleap : ¬ l.IsLeapSecond) :
    moveDate p.unit l n = l.onDate (p.unit.dateAfter l.date n) := by
  obtain ⟨duration, unit⟩ := p
  cases unit with
  | minutes | hours => simp [isShortTerm] at hlong
  | months => rfl
  | days | weeks =>
    simp only [moveDate, PeriodUnit.dateAfter, PeriodUnit.lengthInMinutes,
      Moment.addSeconds_of_not_leap hleap, Moment.onDate, Date.addDays, Moment.mk.injEq, and_true]
    omega

theorem shift_of_short (hshort : p.isShortTerm = true) :
    p.shift z start n =
      if (start.addSeconds (60 * p.unit.lengthInMinutes * n)).InRange then
        .ok (start.addSeconds (60 * p.unit.lengthInMinutes * n))
      else .error p.outOfRange := by
  rw [shift, if_pos hshort, Moment.checked?]
  by_cases hrange : (start.addSeconds (60 * p.unit.lengthInMinutes * n)).InRange
  · rw [if_pos hrange, if_pos hrange]
  · rw [if_neg hrange, if_neg hrange]

/-- The local time `n` units after an instant, for a unit that moves the date. -/
def localAfter (p : Period) (z : Zone) (start : Instant) (n : Int) : LocalTime :=
  (z.toLocal start).onDate (p.unit.dateAfter (z.localDate start) n)

theorem shift_of_long (hlong : p.isShortTerm = false) (hleap : ¬ start.IsLeapSecond) :
    p.shift z start n =
      if (p.localAfter z start n).InRange then z.resolve (p.localAfter z start n)
      else .error p.outOfRange := by
  have hlocal : ¬ (z.toLocal start).IsLeapSecond := hleap
  have hmoved : moveDate p.unit (z.toLocal start) n = p.localAfter z start n :=
    moveDate_eq hlong hlocal
  rw [shift, if_neg (Bool.eq_false_iff.mp hlong), hmoved, Moment.checked?]
  by_cases hrange : (p.localAfter z start n).InRange
  · rw [if_pos hrange, if_pos hrange]
  · rw [if_neg hrange, if_neg hrange]

theorem eq_of_shift_short (hshort : p.isShortTerm = true) (h : p.shift z start n = .ok t) :
    t = start.addSeconds (60 * p.unit.lengthInMinutes * n) := by
  rw [shift_of_short hshort] at h
  split at h
  · exact (Except.ok.inj h).symm
  · cases h

theorem resolve_of_shift_long (hlong : p.isShortTerm = false) (hleap : ¬ start.IsLeapSecond)
    (h : p.shift z start n = .ok t) :
    (p.localAfter z start n).InRange ∧ z.resolve (p.localAfter z start n) = .ok t := by
  rw [shift_of_long hlong hleap] at h
  split at h
  · rename_i hrange
    exact ⟨hrange, h⟩
  · cases h

/-! ## There and back -/

theorem dateAfter_neg_add {unit : PeriodUnit} {d : Date}
    (hmonth : unit = .months → d.civil.day ≤ Date.lengthOfMonth (d.monthNumber - n)) :
    unit.dateAfter (unit.dateAfter d (-n)) n = d := by
  cases unit with
  | months => exact Date.addMonths_neg_add_of_le (hmonth rfl)
  | minutes | hours | days | weeks =>
    rw [Date.ext_iff]
    simp only [PeriodUnit.dateAfter, Date.addDays]
    omega

theorem eq_of_short (hshort : p.isShortTerm = true) (hleap : ¬ start.IsLeapSecond)
    (hbefore : p.minusDate z start = .ok before) (hafter : p.plusDate z before = .ok after) :
    after = start := by
  obtain rfl := eq_of_shift_short hshort hbefore
  obtain rfl := eq_of_shift_short hshort hafter
  rw [Int.mul_neg, Moment.addSeconds_neg_add hleap]

/-- Where the clock shows the local time in between, adding the period moves that local time. -/
theorem localAfter_of_shown (hshown : z.toLocal before = p.localAfter z start (-p.duration)) :
    p.localAfter z before p.duration = (z.toLocal start).onDate
      (p.unit.dateAfter (p.unit.dateAfter (z.localDate start) (-p.duration)) p.duration) := by
  rw [localAfter, Zone.localDate, hshown, localAfter, Moment.date_onDate, Moment.onDate_onDate]

theorem resolve_of_shown (hlong : p.isShortTerm = false) (hleap : ¬ start.IsLeapSecond)
    (hshown : z.toLocal before = p.localAfter z start (-p.duration))
    (hafter : p.plusDate z before = .ok after) :
    (p.localAfter z before p.duration).InRange ∧
      z.resolve (p.localAfter z before p.duration) = .ok after := by
  have hbetween : ¬ (z.toLocal before).IsLeapSecond := by
    rw [hshown]
    exact hleap
  exact resolve_of_shift_long hlong hbetween hafter

theorem eq_of_long (hlong : p.isShortTerm = false) (hleap : ¬ start.IsLeapSecond)
    (hbefore : p.minusDate z start = .ok before) (hafter : p.plusDate z before = .ok after)
    (hfirst : IsLeast (z.shownAt (z.toLocal start)) start)
    (hshown : (z.shownAt (p.localAfter z start (-p.duration))).Nonempty)
    (hmonth : p.unit = .months → (z.localDate start).civil.day ≤
      Date.lengthOfMonth ((z.localDate start).monthNumber - p.duration)) : after = start := by
  obtain ⟨before', hresolve, hleast⟩ := Zone.exists_resolve_eq_ok hshown
  obtain ⟨-, hmoved⟩ := resolve_of_shift_long hlong hleap hbefore
  obtain rfl := Except.ok.inj (hresolve.symm.trans hmoved)
  obtain ⟨-, hback⟩ := resolve_of_shown hlong hleap hleast.1.1 hafter
  rw [localAfter_of_shown hleast.1.1, dateAfter_neg_add hmonth, Zone.localDate,
    Moment.onDate_date] at hback
  exact Except.ok.inj (hback.symm.trans (Zone.resolve_eq_ok_iff.mpr (.inl hfirst)))

/-- In universal time every local time in between is shown. -/
theorem toLocal_eq_of_universal (hz : z.IsFixed 0) (hlong : p.isShortTerm = false)
    (hleap : ¬ start.IsLeapSecond) (hbefore : p.minusDate z start = .ok before)
    (hafter : p.plusDate z before = .ok after) :
    z.toLocal after = (z.toLocal start).onDate
      (p.unit.dateAfter (p.unit.dateAfter (z.localDate start) (-p.duration)) p.duration) := by
  obtain ⟨hearlier, hmoved⟩ := resolve_of_shift_long hlong hleap hbefore
  have hshown := hz.toLocal_of_resolve_inRange hearlier hmoved
  obtain ⟨hback, hresolve⟩ := resolve_of_shown hlong hleap hshown hafter
  rw [hz.toLocal_of_resolve_inRange hback hresolve, localAfter_of_shown hshown]

/-- What is taken away from an instant and added back leads back to the instant, for minutes and
hours always, for days, weeks and months if the clock shows the local time in between, the instant
is the first of its local time and, for months, the month in between has its day. In universal time
months always lead back to the month and the time of day. -/
theorem plusDate_undoes_minusDate (hleap : ¬ start.IsLeapSecond)
    (hbefore : p.minusDate z start = .ok before) (hafter : p.plusDate z before = .ok after) :
    let date := z.localDate start
    let first := IsLeast (z.shownAt (z.toLocal start)) start
    let shown := (z.shownAt (p.localAfter z start (-p.duration))).Nonempty
    (p.unit = .minutes ∨ p.unit = .hours → after = start) ∧
    (p.unit = .days ∨ p.unit = .weeks → first → shown → after = start) ∧
    (p.unit = .months → first → shown →
      date.civil.day ≤ Date.lengthOfMonth (date.monthNumber - p.duration) → after = start) ∧
    (p.unit = .months → z.IsFixed 0 →
      after.date.civil = { start.date.civil with
        day := min start.date.civil.day
          (Date.lengthOfMonth (start.date.monthNumber - p.duration)) } ∧
      after.secondOfDay = start.secondOfDay ∧ after.nano = start.nano) := by
  intro date first shown
  refine ⟨fun hunit => ?_, fun hunit hfirst hshown => ?_, fun hunit hfirst hshown hday => ?_,
    fun hunit hz => ?_⟩
  · exact eq_of_short (decide_eq_true hunit) hleap hbefore hafter
  · have hlong : p.isShortTerm = false := by
      rcases hunit with hunit | hunit <;> simp [isShortTerm, hunit]
    refine eq_of_long hlong hleap hbefore hafter hfirst hshown fun hmonths => ?_
    simp [hmonths] at hunit
  · have hlong : p.isShortTerm = false := by simp [isShortTerm, hunit]
    exact eq_of_long hlong hleap hbefore hafter hfirst hshown fun _ => hday
  · have hlong : p.isShortTerm = false := by simp [isShortTerm, hunit]
    have hlocal := toLocal_eq_of_universal hz hlong hleap hbefore hafter
    rw [hunit] at hlocal
    refine ⟨?_, ?_, ?_⟩
    · rw [← hz.date_toLocal after, hlocal, Moment.date_onDate, Zone.localDate, hz.date_toLocal]
      exact Date.civil_addMonths_neg_add _ _
    · rw [← hz.secondOfDay_toLocal after, hlocal, Moment.secondOfDay_onDate, hz.secondOfDay_toLocal]
    · change (z.toLocal after).nano = (z.toLocal start).nano
      rw [hlocal]
      rfl

/-- Two months before a morning in December and two months on, across the change of the clock in Sao
Paulo, and a month before the end of March and a month on in universal time. -/
theorem plusDate_undoes_minusDate_december :
    (∃ before after,
      minusDate ⟨2, .months⟩ Zone.saoPaulo (.ofSecond 1544875200) = .ok before ∧
      plusDate ⟨2, .months⟩ Zone.saoPaulo before = .ok after ∧
      Zone.saoPaulo.offsetAt before.second ≠ Zone.saoPaulo.offsetAt after.second ∧
      after = .ofSecond 1544875200) ∧
    ∃ before after,
      minusDate ⟨1, .months⟩ Zone.utc (.ofSecond 1711879200) = .ok before ∧
      plusDate ⟨1, .months⟩ Zone.utc before = .ok after ∧ after.date.civil = ⟨2024, 3, 29⟩ := by
  constructor
  · have hbefore : minusDate ⟨2, .months⟩ Zone.saoPaulo (.ofSecond 1544875200) =
        .ok (.ofSecond 1539608400) := by decide
    have hafter : plusDate ⟨2, .months⟩ Zone.saoPaulo (.ofSecond 1539608400) =
        .ok (.ofSecond 1544875200) := by decide
    have hfirst : IsLeast (Zone.saoPaulo.shownAt (Zone.saoPaulo.toLocal (.ofSecond 1544875200)))
        (.ofSecond 1544875200) := Zone.earliest?_eq_some_iff.mp (by decide)
    have hshown : .ofSecond 1539608400 ∈ Zone.saoPaulo.shownAt
        (localAfter ⟨2, .months⟩ Zone.saoPaulo (.ofSecond 1544875200) (-2)) :=
      ⟨by decide, by decide⟩
    obtain ⟨-, -, hmonths, -⟩ := plusDate_undoes_minusDate (by decide) hbefore hafter
    exact ⟨_, _, hbefore, hafter, by decide, hmonths rfl hfirst ⟨_, hshown⟩ (by decide)⟩
  · have hbefore : minusDate ⟨1, .months⟩ Zone.utc (.ofSecond 1711879200) =
        .ok (.ofSecond 1709200800) := by decide
    have hafter : plusDate ⟨1, .months⟩ Zone.utc (.ofSecond 1709200800) =
        .ok (.ofSecond 1711706400) := by decide
    obtain ⟨-, -, -, huniversal⟩ := plusDate_undoes_minusDate (by decide) hbefore hafter
    have hz : Zone.utc.IsFixed 0 := Zone.constant_isFixed "UTC" (by decide) (by decide)
    exact ⟨_, _, hbefore, hafter, (huniversal rfl hz).1.trans (by decide)⟩

end Period

end Circulation
