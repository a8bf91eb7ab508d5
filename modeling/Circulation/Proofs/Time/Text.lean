import Circulation.Proofs.Text.Digits
import Circulation.Proofs.Time.Month
import Circulation.Time.Text

/-!
# Reading dates and times back

A date that can be represented is read back from its written form. So are times of day and instants,
but for leap seconds inside a minute: a leap second is written as the second after its own, which is
second 60 only at the end of the minute.
-/

namespace Circulation

open Text

variable {rest : List Char}

/-! ## Dates -/

namespace Date

variable {d : Date} {year : Int} {n : Nat} {ds : List Char}

theorem ofCivil_civil (d : Date) : ofCivil d.civil = d := by
  have hday := monthStart_monthNumber d
  rw [monthStart, ← civil_year, ← civil_month] at hday
  refine Date.ext ?_
  simp only [ofCivil]
  omega

theorem exists_civil (d : Date) : Exists d.civil := by
  have hmonth : 1 ≤ d.civil.month ∧ d.civil.month ≤ 12 := monthOf_bounds _ _
  have hday := civil_day_le d
  rw [lengthOfMonth, ← civil_year, ← civil_month] at hday
  exact ⟨hmonth.1, hmonth.2, civil_day_pos d, hday⟩

theorem ofCivil?_civil (h : d.InRange) : ofCivil? d.civil = some d := by
  rw [ofCivil?, if_pos (exists_civil d), ofCivil_civil, checked?, if_pos h]

theorem isNumeral_year (year : Int) :
    IsNumeral (if year.natAbs < 10000 then fixed 4 year.natAbs else decimal year.natAbs)
      year.natAbs := by
  split
  · exact isNumeral_fixed (by decide) ‹_›
  · exact isNumeral_decimal _

theorem year?_four (h : IsNumeral ds n) (hlength : ds.length = 4) :
    year? (ds ++ rest) = some ((n : Int), rest) := by
  have hnumber : number? 4 (ds ++ rest) = some (n, rest) :=
    h.number?_append (Nat.le_of_eq hlength) (.inl hlength)
  rw [year?, h.skipBlanks_append]
  obtain ⟨c, cs, rfl, hc⟩ := h.exists_cons
  -- A digit is no sign.
  split
  · rename_i heq
    obtain ⟨rfl, -⟩ := List.cons.inj heq
    exact absurd hc (by decide)
  · rename_i heq
    obtain ⟨rfl, -⟩ := List.cons.inj heq
    exact absurd hc (by decide)
  · rw [hnumber]
    rfl

theorem year?_minus (h : IsNumeral ds n) (hrest : NoDigit rest) :
    year? ('-' :: (ds ++ rest)) = some (-(n : Int), rest) := by
  have hnumber : number? (ds ++ rest).length (ds ++ rest) = some (n, rest) :=
    h.number?_append (by simp) (.inr hrest)
  rw [year?, skipBlanks_cons (by decide)]
  simp only [hnumber, Option.map_some]

theorem year?_plus (h : IsNumeral ds n) (hrest : NoDigit rest) :
    year? ('+' :: (ds ++ rest)) = some ((n : Int), rest) := by
  have hnumber : number? (ds ++ rest).length (ds ++ rest) = some (n, rest) :=
    h.number?_append (by simp) (.inr hrest)
  rw [year?, skipBlanks_cons (by decide)]
  simp only [hnumber, Option.map_some]

theorem year?_yearChars (hrest : NoDigit rest) :
    year? (yearChars year ++ rest) = some (year, rest) := by
  have hnumeral := isNumeral_year year
  by_cases hfour : 0 ≤ year ∧ year ≤ 9999
  · have hsmall : year.natAbs < 10000 := by omega
    rw [if_pos hsmall] at hnumeral
    rw [yearChars, if_pos hfour, if_pos hsmall, year?_four hnumeral (length_fixed 4 _),
      Int.natAbs_of_nonneg hfour.1]
  · rw [yearChars, if_neg hfour]
    by_cases hneg : year < 0
    · rw [if_pos hneg, List.cons_append, year?_minus hnumeral hrest,
        show -(year.natAbs : Int) = year by omega]
    · rw [if_neg hneg, List.cons_append, year?_plus hnumeral hrest,
        Int.natAbs_of_nonneg (Int.not_lt.mp hneg)]

theorem read?_chars (h : d.InRange) (rest : List Char) :
    read? (d.chars ++ rest) = some (d, rest) := by
  have hmonth : d.civil.month < Nat.pow 10 2 :=
    Nat.lt_of_le_of_lt (exists_civil d).2.1 (by decide)
  have hday : d.civil.day < Nat.pow 10 2 :=
    Nat.lt_of_le_of_lt ((civil_day_le d).trans (lengthOfMonth_bounds _).2) (by decide)
  have hmark : NoDigit
      ('-' :: (fixed 2 d.civil.month ++ '-' :: (fixed 2 d.civil.day ++ rest))) := by
    rintro c ⟨⟩
    rfl
  simp only [read?, chars, List.append_assoc, List.cons_append, year?_yearChars hmark,
    Option.bind_eq_bind, Option.bind_some, mark?_cons (show isBlank '-' = false by decide),
    field?_fixed (show 0 < 2 by decide) hmonth, field?_fixed (show 0 < 2 by decide) hday,
    ofCivil?_civil h]

theorem ofText?_toText (h : d.InRange) : ofText? d.toText = some d := by
  have hread := read?_chars h []
  rw [List.append_nil] at hread
  rw [ofText?, toText, String.toList_ofList, ofChars?, hread]
  rfl

end Date

/-! ## Times of day -/

theorem fraction?_fixed {width m : Nat} (hwidth : 0 < width) (hle : width ≤ 9)
    (hm : m < Nat.pow 10 width) (hrest : NoDigit rest) :
    fraction? ('.' :: (fixed width m ++ rest)) = some (m * Nat.pow 10 (9 - width), rest) := by
  have hnumber : number? 9 (fixed width m ++ rest) = some (m, rest) :=
    (isNumeral_fixed hwidth hm).number?_append (by rw [length_fixed]; exact hle) (.inr hrest)
  have hspan : spanDigits rest.length ([] ++ rest) = ([], rest) :=
    spanDigits_append nofun (Nat.zero_le _) (.inr hrest)
  rw [List.nil_append] at hspan
  simp only [fraction?, hnumber, Option.bind_eq_bind, Option.bind_some, List.length_append,
    length_fixed, Nat.add_sub_cancel, hspan]

/-- A fraction that is written without its last zeros. -/
theorem fraction?_scaled {width scale nano : Nat} (hwidth : 0 < width) (hle : width ≤ 9)
    (hscale : Nat.pow 10 (9 - width) = scale) (hnano : nano / scale < Nat.pow 10 width)
    (hzeros : nano % scale = 0) (hrest : NoDigit rest) :
    fraction? ('.' :: (fixed width (nano / scale) ++ rest)) = some (nano, rest) := by
  rw [fraction?_fixed hwidth hle hnano hrest, hscale,
    Nat.div_mul_cancel (Nat.dvd_of_mod_eq_zero hzeros)]

/-- What follows is neither a digit nor a fraction. -/
def EndsClock (rest : List Char) : Prop := NoDigit rest ∧ rest.head? ≠ some '.'

theorem fraction?_of_endsClock (h : EndsClock rest) : fraction? rest = some (0, rest) := by
  unfold fraction?
  split
  · exact absurd rfl h.2
  · rfl

theorem fraction?_fractionChars {nano : Nat} (hnano : nano < nanosPerSecond)
    (hrest : EndsClock rest) : fraction? (fractionChars nano ++ rest) = some (nano, rest) := by
  simp only [nanosPerSecond] at hnano
  unfold fractionChars
  split
  case isTrue hzero =>
    rw [hzero]
    exact fraction?_of_endsClock hrest
  split
  case isTrue hmilli =>
    have hlt : nano / 1000000 < 1000 := by omega
    exact fraction?_scaled (by decide) (by decide) rfl hlt hmilli hrest.1
  split
  case isTrue hmicro =>
    have hlt : nano / 1000 < 1000000 := by omega
    exact fraction?_scaled (by decide) (by decide) rfl hlt hmicro hrest.1
  case isFalse =>
    rw [List.cons_append, fraction?_fixed (by decide) (by decide) hnano hrest.1]
    exact congrArg (fun n => some (n, rest)) (Nat.mul_one nano)

namespace TimeOfDay

variable {t : TimeOfDay} {hour minute second nano : Nat}

theorem hourMinute?_fixed (hhour : hour < 100) (hminute : minute < 100) (rest : List Char) :
    hourMinute? (fixed 2 hour ++ ':' :: (fixed 2 minute ++ rest)) = some (hour, minute, rest) := by
  simp only [hourMinute?, field?_fixed (show 0 < 2 by decide) (show _ < Nat.pow 10 2 from hhour),
    Option.bind_eq_bind, Option.bind_some, mark?_cons (show isBlank ':' = false by decide),
    field?_fixed (show 0 < 2 by decide) (show _ < Nat.pow 10 2 from hminute)]

theorem seconds?_fixed (hsecond : second < 100) (hnano : nano < nanosPerSecond)
    (hrest : EndsClock rest) :
    seconds? (':' :: (fixed 2 second ++ (fractionChars nano ++ rest))) =
      some (second, nano, rest) := by
  simp only [seconds?, mark?_cons (show isBlank ':' = false by decide), Option.bind_eq_bind,
    Option.bind_some, field?_fixed (show 0 < 2 by decide) (show _ < Nat.pow 10 2 from hsecond),
    fraction?_fractionChars hnano hrest]

/-- If the time is a leap second, it is the last second of its minute. -/
def LeapEndsMinute (t : TimeOfDay) : Prop := nanosPerSecond ≤ t.nano → t.second % 60 = 59

instance (t : TimeOfDay) : Decidable t.LeapEndsMinute := inferInstanceAs (Decidable (_ → _))

/-- The time that the written form stands for: a leap second inside a minute looks like the second
after it. -/
def asWritten (t : TimeOfDay) : TimeOfDay :=
  if h : t.LeapEndsMinute then t
  else
    have hleap := Classical.not_imp.mp h
    ⟨t.second + 1, t.nano - nanosPerSecond, by have := t.second_lt; omega,
      by have := t.nano_lt; omega⟩

theorem asWritten_of_leapEndsMinute (h : t.LeapEndsMinute) : t.asWritten = t := dif_pos h

theorem asWritten_eq_iff : t.asWritten = t ↔ t.LeapEndsMinute := by
  refine ⟨fun heq => ?_, asWritten_of_leapEndsMinute⟩
  by_contra h
  have hsecond := congrArg TimeOfDay.second heq
  rw [asWritten, dif_neg h] at hsecond
  exact absurd hsecond (Nat.succ_ne_self t.second)

/-- The hour, the minute, the second and the fraction that are written. -/
theorem ofClock?_parts (t : TimeOfDay) :
    ofClock? (t.second / 3600) (t.second / 60 % 60) (t.second % 60 + t.nano / nanosPerSecond)
      (t.nano % nanosPerSecond) = some t.asWritten := by
  obtain ⟨second, nano, hsecond, hnano⟩ := t
  simp only [nanosPerSecond]
  have hparts : second / 3600 < 24 ∧ second / 60 % 60 < 60 ∧
      second % 60 + nano / 1000000000 ≤ 60 ∧ nano % 1000000000 < 1000000000 := by omega
  rw [ofClock?, dif_pos hparts]
  by_cases hleap : LeapEndsMinute ⟨second, nano, hsecond, hnano⟩
  · have hminute : 1000000000 ≤ nano → second % 60 = 59 := hleap
    rw [asWritten_of_leapEndsMinute hleap]
    split <;> congr 2 <;> omega
  · have hinside : 1000000000 ≤ nano ∧ second % 60 ≠ 59 := Classical.not_imp.mp hleap
    rw [asWritten, dif_neg hleap, dif_neg (by omega)]
    have hnext : 3600 * (second / 3600) + 60 * (second / 60 % 60) +
        (second % 60 + nano / 1000000000) = second + 1 := by omega
    have hfraction : nano % 1000000000 = nano - 1000000000 := by omega
    simp only [hnext, hfraction, nanosPerSecond]

theorem hourMinute?_chars (t : TimeOfDay) (rest : List Char) :
    hourMinute? (t.chars ++ rest) = some (t.second / 3600, t.second / 60 % 60,
      ':' :: (fixed 2 (t.second % 60 + t.nano / nanosPerSecond) ++
        (fractionChars (t.nano % nanosPerSecond) ++ rest))) := by
  have hsecond := t.second_lt
  simp only [chars, clockChars, List.append_assoc, List.cons_append]
  exact hourMinute?_fixed (by omega) (by omega) _

theorem seconds?_chars (t : TimeOfDay) (hrest : EndsClock rest) :
    seconds? (':' :: (fixed 2 (t.second % 60 + t.nano / nanosPerSecond) ++
        (fractionChars (t.nano % nanosPerSecond) ++ rest))) =
      some (t.second % 60 + t.nano / nanosPerSecond, t.nano % nanosPerSecond, rest) := by
  have hnano := t.nano_lt
  refine seconds?_fixed ?_ (Nat.mod_lt _ (by decide)) hrest
  simp only [nanosPerSecond]
  omega

theorem read?_chars (t : TimeOfDay) (hrest : EndsClock rest) :
    read? (t.chars ++ rest) = some (t.asWritten, rest) := by
  simp only [read?, hourMinute?_chars t rest, Option.bind_eq_bind, Option.bind_some,
    seconds?_chars t hrest, ofClock?_parts]

theorem endsClock_nil : EndsClock [] := ⟨nofun, nofun⟩

theorem ofText?_toText (t : TimeOfDay) : ofText? t.toText = some t.asWritten := by
  have hclock := hourMinute?_chars t []
  rw [List.append_nil] at hclock
  simp only [ofText?, toText, String.toList_ofList, ofChars?, hclock, Option.bind_eq_bind,
    Option.bind_some, seconds?_chars t endsClock_nil, Option.getD_some]
  exact (if_pos rfl).trans (ofClock?_parts t)

end TimeOfDay

/-! ## Instants -/

namespace Moment

variable {f : Frame} {m : Moment f}

/-- The time of day. -/
def clock (m : Moment f) : TimeOfDay :=
  ⟨m.secondOfDay, m.nano, by unfold secondOfDay; omega, m.nano_lt⟩

/-- If the moment is a leap second, it is the last second of its minute. -/
def LeapEndsMinute (m : Moment f) : Prop := m.IsLeapSecond → m.second % 60 = 59

instance (m : Moment f) : Decidable m.LeapEndsMinute := inferInstanceAs (Decidable (_ → _))

/-- The moment that the written form stands for. -/
def asWritten (m : Moment f) : Moment f :=
  ⟨86400 * m.date.day + m.clock.asWritten.second, m.clock.asWritten.nano,
    m.clock.asWritten.nano_lt⟩

theorem leapEndsMinute_clock : m.clock.LeapEndsMinute ↔ m.LeapEndsMinute := by
  simp only [TimeOfDay.LeapEndsMinute, LeapEndsMinute, IsLeapSecond, clock, secondOfDay]
  omega

theorem asWritten_eq_iff : m.asWritten = m ↔ m.LeapEndsMinute := by
  rw [← leapEndsMinute_clock, ← TimeOfDay.asWritten_eq_iff, ext_iff']
  have hsecond : m.second = 86400 * m.date.day + m.clock.second := by
    simp only [date, clock, secondOfDay]
    omega
  have hparts : m.clock.asWritten = m.clock ↔ m.clock.asWritten.second = m.clock.second ∧
      m.clock.asWritten.nano = m.clock.nano := by
    cases m.clock.asWritten
    cases m.clock
    simp
  rw [hparts]
  refine and_congr ?_ Iff.rfl
  simp only [asWritten]
  omega

end Moment

namespace Instant

theorem ofText?_toText {t : Instant} (h : t.InRange) : ofText? t.toText = some t.asWritten := by
  have hchars : t.toText.toList = t.date.chars ++ 'T' :: (t.clock.chars ++ ['Z']) := by
    simp only [toText, String.toList_ofList, Moment.chars, TimeOfDay.chars, Moment.clock,
      List.append_assoc, List.cons_append]
  have hseparator : separator? ('T' :: (t.clock.chars ++ ['Z'])) =
      some (t.clock.chars ++ ['Z']) := rfl
  have hclock : TimeOfDay.read? (t.clock.chars ++ ['Z']) = some (t.clock.asWritten, ['Z']) := by
    refine t.clock.read?_chars ⟨?_, by decide⟩
    rintro c ⟨⟩
    rfl
  have hoffset : offset? ['Z'] = some (0, []) := rfl
  have hmoment : (⟨(t.date.at t.clock.asWritten).second - 0, (t.date.at t.clock.asWritten).nano,
      (t.date.at t.clock.asWritten).nano_lt⟩ : Instant) = t.asWritten := by
    simp only [Date.at, Moment.asWritten, Int.sub_zero]
  have hrange : t.asWritten.InRange := by
    have hdate : (t.date.at t.clock.asWritten).date = t.date := Date.date_at _ _
    rw [Moment.InRange, ← hmoment]
    simp only [Int.sub_zero]
    exact (congrArg Date.InRange hdate).mpr h
  simp only [ofText?, hchars, ofChars?, Date.read?_chars h, Option.bind_eq_bind,
    Option.bind_some, hseparator, hclock, hoffset, hmoment]
  exact (if_pos ⟨rfl, by decide⟩).trans (if_pos hrange)

end Instant

end Circulation
