import Circulation.Proofs.Period.Move
import Circulation.Proofs.Result
import Circulation.Proofs.Time.Elapsed

/-!
# Periods in universal time

In universal time a period is added exactly or, where the calendar ends, not at all. Minutes, hours,
days and weeks last as long as they count in minutes. Months last 28 days each at least and as long
as they count in minutes at most.
-/

namespace Circulation

namespace Moment

variable {f : Frame} {a b : Moment f} {d : Date}

theorem nanosSince_of_nano_eq (ha : ¬ a.IsLeapSecond) (hb : ¬ b.IsLeapSecond)
    (h : a.nano = b.nano) : a.nanosSince b = (a.second - b.second) * nanosPerSecond := by
  rw [nanosSince_eq ha hb, nanos, nanos, h, Int.sub_mul]
  omega

end Moment

namespace Period

variable {p : Period} {z : Zone} {start due : Instant} {n : Int}

/-- The instant `n` units of a fixed length later. -/
def exactly (p : Period) (start : Instant) (n : Int) : Instant :=
  ⟨start.second + 60 * (n * p.unit.lengthInMinutes), start.nano, start.nano_lt⟩

/-! ## One move -/

theorem instantAt_localAfter (hz : z.IsFixed 0) :
    Zone.instantAt (p.localAfter z start n) 0 =
      start.onDate (p.unit.dateAfter start.date n) := by
  rw [Moment.ext_iff']
  simp only [Zone.instantAt, localAfter, Moment.onDate, Zone.localDate, hz.second_toLocal,
    hz.date_toLocal]
  exact ⟨by omega, rfl⟩

theorem shift_universal_long (hz : z.IsFixed 0) (hlong : p.isShortTerm = false)
    (hleap : ¬ start.IsLeapSecond) :
    p.shift z start n =
      if (start.onDate (p.unit.dateAfter start.date n)).InRange then
        .ok (start.onDate (p.unit.dateAfter start.date n))
      else .error p.outOfRange := by
  have hmoved : (p.localAfter z start n).InRange ↔
      (start.onDate (p.unit.dateAfter start.date n)).InRange := by
    rw [localAfter, Moment.inRange_onDate, Moment.inRange_onDate, Zone.localDate, hz.date_toLocal]
  rw [shift_of_long hlong hleap]
  by_cases hrange : (start.onDate (p.unit.dateAfter start.date n)).InRange
  · have hinstant : (Zone.instantAt (p.localAfter z start n) 0).InRange := by
      rw [instantAt_localAfter hz]
      exact hrange
    rw [if_pos hrange, if_pos (hmoved.mpr hrange), hz.resolve_eq hinstant, instantAt_localAfter hz]
  · rw [if_neg hrange, if_neg (hmoved.not.mpr hrange)]

theorem shift_universal_exactly (hz : z.IsFixed 0) (hunit : p.unit ≠ .months)
    (hleap : ¬ start.IsLeapSecond) :
    p.shift z start n =
      if (p.exactly start n).InRange then .ok (p.exactly start n) else .error p.outOfRange := by
  cases hshort : p.isShortTerm with
  | true =>
    have hsame : start.addSeconds (60 * p.unit.lengthInMinutes * n) = p.exactly start n := by
      rw [Moment.addSeconds_of_not_leap hleap, exactly, Int.mul_comm n, Int.mul_assoc]
    rw [shift_of_short hshort, hsame]
  | false =>
    have hsame : start.onDate (p.unit.dateAfter start.date n) = p.exactly start n := by
      obtain ⟨duration, unit⟩ := p
      rw [Moment.ext_iff']
      cases unit with
      | minutes | hours => simp [isShortTerm] at hshort
      | months => exact absurd rfl hunit
      | days | weeks =>
        simp only [Moment.onDate, PeriodUnit.dateAfter, Date.addDays, exactly,
          PeriodUnit.lengthInMinutes]
        exact ⟨by omega, trivial⟩
    rw [shift_universal_long hz hshort hleap, hsame]

theorem shift_universal_months (hz : z.IsFixed 0) (hunit : p.unit = .months)
    (hleap : ¬ start.IsLeapSecond) :
    p.shift z start n =
      if (start.onDate (start.date.addMonths n)).InRange then
        .ok (start.onDate (start.date.addMonths n))
      else .error p.outOfRange := by
  rw [shift_universal_long hz (by simp [isShortTerm, hunit]) hleap, hunit]
  rfl

/-! ## Elapsed time -/

theorem toMinutes_eq {unit : PeriodUnit} (hlower : minDuration ≤ n * unit.lengthInMinutes)
    (hupper : n * unit.lengthInMinutes ≤ maxDuration) :
    toMinutes ⟨n, unit⟩ = n * unit.lengthInMinutes := by
  rw [toMinutes]
  dsimp only
  omega

/-- Between instants that can be represented lie fewer minutes than can be written. -/
theorem toMinutes_of_inRange (hstart : start.InRange) (hdue : (p.exactly start n).InRange) :
    toMinutes ⟨n, p.unit⟩ = n * p.unit.lengthInMinutes := by
  rw [Moment.inRange_iff] at hstart hdue
  simp only [exactly, Date.first, Date.last] at hstart hdue
  apply toMinutes_eq
  · unfold minDuration
    omega
  · unfold maxDuration
    omega

theorem nanosSince_exactly (hstart : start.InRange) (hleap : ¬ start.IsLeapSecond)
    (hdue : (p.exactly start n).InRange) :
    (p.exactly start n).nanosSince start = toMinutes ⟨n, p.unit⟩ * (60 * nanosPerSecond) := by
  have hdueLeap : ¬ (p.exactly start n).IsLeapSecond := hleap
  rw [Moment.nanosSince_of_nano_eq hdueLeap hleap rfl, toMinutes_of_inRange hstart hdue, exactly]
  simp only [nanosPerSecond]
  omega

theorem toMinutes_months {d : Date} (hd : d.InRange) (hdue : (d.addMonths n).InRange) :
    toMinutes ⟨n, .months⟩ = 44640 * n := by
  have hmonth := Date.monthNumber_bounds hd
  have hmonthDue := Date.monthNumber_bounds hdue
  rw [Date.monthNumber_addMonths] at hmonthDue
  rw [Int.mul_comm]
  apply toMinutes_eq
  · simp only [minDuration, PeriodUnit.lengthInMinutes]
    omega
  · simp only [maxDuration, PeriodUnit.lengthInMinutes]
    omega

theorem nanosSince_onDate {d : Date} (hleap : ¬ start.IsLeapSecond) :
    (start.onDate d).nanosSince start = (d.day - start.date.day) * (86400 * nanosPerSecond) := by
  have hdue : ¬ (start.onDate d).IsLeapSecond := hleap
  rw [Moment.nanosSince_of_nano_eq hdue hleap rfl, Moment.onDate]
  simp only [nanosPerSecond]
  omega

/-- The result of moving `start` by `n` of the period's units is exact, and an error just where the
calendar ends. -/
structure MovesExactly (p : Period) (start : Instant) (n : Int) (result : Result Instant) :
    Prop where
  /-- Minutes, hours, days and weeks have a fixed length. -/
  error_iff : p.unit ≠ .months → ∀ e,
    result = .error e ↔ e = p.outOfRange ∧ ¬ (p.exactly start n).InRange
  elapsed_eq : p.unit ≠ .months → ∀ due, result = .ok due →
    due.nanosSince start = toMinutes ⟨n, p.unit⟩ * (60 * nanosPerSecond)
  months_error_iff : p.unit = .months → ∀ e, result = .error e ↔ e = p.outOfRange ∧
    ¬ (Date.first.civil.year ≤ (start.date.monthNumber + n) / 12 ∧
      (start.date.monthNumber + n) / 12 ≤ Date.last.civil.year)
  months_ahead : p.unit = .months → 0 ≤ n → ∀ due, result = .ok due →
    28 * n * (86400 * nanosPerSecond) ≤ due.nanosSince start ∧
      due.nanosSince start ≤ toMinutes ⟨n, p.unit⟩ * (60 * nanosPerSecond)
  months_back : p.unit = .months → n ≤ 0 → ∀ due, result = .ok due →
    toMinutes ⟨n, p.unit⟩ * (60 * nanosPerSecond) ≤ due.nanosSince start ∧
      due.nanosSince start ≤ 28 * n * (86400 * nanosPerSecond)

theorem shift_movesExactly (hz : z.IsFixed 0) (hstart : start.InRange)
    (hleap : ¬ start.IsLeapSecond) (n : Int) : p.MovesExactly start n (p.shift z start n) where
  error_iff hunit e := by
    rw [shift_universal_exactly hz hunit hleap, Result.ite_eq_error_iff]
  elapsed_eq hunit due hdue := by
    rw [shift_universal_exactly hz hunit hleap, Result.ite_eq_ok_iff] at hdue
    obtain ⟨hrange, rfl⟩ := hdue
    exact nanosSince_exactly hstart hleap hrange
  months_error_iff hunit e := by
    rw [shift_universal_months hz hunit hleap, Result.ite_eq_error_iff, Moment.inRange_onDate,
      Date.inRange_addMonths_iff]
  months_ahead hunit hn due hdue := by
    rw [shift_universal_months hz hunit hleap, Result.ite_eq_ok_iff, Moment.inRange_onDate] at hdue
    obtain ⟨hrange, rfl⟩ := hdue
    have hbounds := Date.addMonths_bounds start.date hn
    rw [hunit, nanosSince_onDate hleap, toMinutes_months hstart hrange]
    simp only [nanosPerSecond]
    omega
  months_back hunit hn due hdue := by
    rw [shift_universal_months hz hunit hleap, Result.ite_eq_ok_iff, Moment.inRange_onDate] at hdue
    obtain ⟨hrange, rfl⟩ := hdue
    have hbounds := Date.addMonths_neg_bounds start.date (Int.neg_nonneg_of_nonpos hn)
    rw [Int.neg_neg] at hbounds
    rw [hunit, nanosSince_onDate hleap, toMinutes_months hstart hrange]
    simp only [nanosPerSecond]
    omega

/-- The opposite of the least duration leads out of the calendar in every unit. -/
theorem minusDate_minDuration (hz : z.IsFixed 0) (hstart : start.InRange)
    (hleap : ¬ start.IsLeapSecond) (hduration : p.duration = minDuration) :
    p.minusDate z start = .error p.outOfRange := by
  have hmoves : p.MovesExactly start (-p.duration) (p.minusDate z start) :=
    shift_movesExactly hz hstart hleap (-p.duration)
  rw [hduration, minDuration] at hmoves
  by_cases hunit : p.unit = .months
  · refine (hmoves.months_error_iff hunit _).mpr ⟨rfl, ?_⟩
    rw [← Date.inRange_addMonths_iff]
    intro hmoved
    have hmonth := Date.monthNumber_bounds hstart
    have hmonthMoved := Date.monthNumber_bounds hmoved
    rw [Date.monthNumber_addMonths] at hmonthMoved
    omega
  · refine (hmoves.error_iff hunit _).mpr ⟨rfl, ?_⟩
    have hlength : 1 ≤ p.unit.lengthInMinutes := by cases p.unit <;> decide
    rw [Moment.inRange_iff] at hstart ⊢
    simp only [exactly, Date.first, Date.last] at hstart ⊢
    omega

/-- In universal time adding a period, or taking it away, is exact or fails where the calendar
ends. -/
theorem plusDate_minusDate_movesExactly (hz : z.IsFixed 0) (hstart : start.InRange)
    (hleap : ¬ start.IsLeapSecond) :
    p.MovesExactly start p.duration (p.plusDate z start) ∧
    p.MovesExactly start (-p.duration) (p.minusDate z start) ∧
    (p.duration = minDuration → p.minusDate z start = .error p.outOfRange) :=
  ⟨shift_movesExactly hz hstart hleap _, shift_movesExactly hz hstart hleap _,
    minusDate_minDuration hz hstart hleap⟩

/-- From the end of January a month leads to the leap day, while the least number of months cannot
be taken away. -/
theorem plusDate_minusDate_movesExactly_january :
    let start : Instant := .ofSecond 1706695200
    Zone.utc.IsFixed 0 ∧ start.InRange ∧ ¬ start.IsLeapSecond ∧
    (∃ due, plusDate ⟨1, .months⟩ Zone.utc start = .ok due ∧ due.date.civil = ⟨2024, 2, 29⟩ ∧
      28 * 1 * (86400 * nanosPerSecond) ≤ due.nanosSince start ∧
      due.nanosSince start ≤ toMinutes ⟨1, .months⟩ * (60 * nanosPerSecond)) ∧
    minusDate ⟨minDuration, .months⟩ Zone.utc start =
      .error (outOfRange ⟨minDuration, .months⟩) := by
  intro start
  have hz : Zone.utc.IsFixed 0 := Zone.constant_isFixed "UTC" (by decide) (by decide)
  have hstart : start.InRange := by decide
  have hleap : ¬ start.IsLeapSecond := by decide
  have hdue : plusDate ⟨1, .months⟩ Zone.utc start = .ok (.ofSecond 1709200800) := by decide
  obtain ⟨hplus, -, -⟩ :=
    plusDate_minusDate_movesExactly (p := ⟨1, .months⟩) hz hstart hleap
  obtain ⟨-, -, hleast⟩ :=
    plusDate_minusDate_movesExactly (p := ⟨minDuration, .months⟩) hz hstart hleap
  exact ⟨hz, hstart, hleap, ⟨_, hdue, by decide, hplus.months_ahead rfl (by decide) _ hdue⟩,
    hleast rfl⟩

end Period

end Circulation
