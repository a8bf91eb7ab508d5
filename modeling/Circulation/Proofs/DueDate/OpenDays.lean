import Circulation.Overdue
import Circulation.Proofs.Calendar.OpenDays
import Circulation.Proofs.Calendar.Records
import Circulation.Proofs.DueDate.Around
import Circulation.Proofs.DueDate.Limit
import Mathlib

/-!
# Only open days matter

Calendars whose registers of a service point have the same zone and the same open days give the
same due dates to loans that are checked out there and the same overdue minutes to items that
belong there. How the days were recorded, closed days and other service points leave no trace.
-/

namespace Circulation

open List (Forall₂)
open OpeningDay (Alike dayHours nightHours)
open Register (SameOpenDays)
open Calendar (Recorded ofRecords)

/-! ## Due dates -/

namespace Service

variable {s s' : Service} {c c' : Calendar} {sp : ServicePoint} {one two : Register}
  {days others : List OpeningDay} {day other : OpeningDay} {loan : Loan} {policy : LoanPolicy}
  {requested now : Instant} {trail : AuditTrail}

theorem keepDay_alike (h : Forall₂ Alike days others) (hday : Alike day other) :
    Forall₂ Alike (keepDay days day) (keepDay others other) := by
  induction h with
  | nil => exact .cons hday .nil
  | cons hd hrest ih =>
    rw [keepDay, keepDay, hd.date_eq, hday.date_eq, hd.isOpen_eq]
    split
    · exact .cons hday (.cons hd hrest)
    · split
      · refine .cons ?_ hrest
        split
        · exact hd
        · exact hday
      · exact .cons hd ih

theorem foldl_keepDay_alike (h : Forall₂ Alike days others) :
    Forall₂ Alike (days.foldl keepDay []) (others.foldl keepDay []) := by
  have hstep : Relator.LiftFun (Forall₂ Alike) (Relator.LiftFun Alike (Forall₂ Alike))
      keepDay keepDay := fun _ _ hdays _ _ hday => keepDay_alike hdays hday
  exact List.rel_foldl hstep .nil h

theorem adjacent_alike (h : SameOpenDays one two) (dates : List Date) :
    Forall₂ Alike (dates.flatMap fun date => (one.adjacent date).days)
      (dates.flatMap fun date => (two.adjacent date).days) := by
  induction dates with
  | nil => exact .nil
  | cons date rest ih => exact List.rel_append (h.adjacent_alike date) ih

/-- A strategy moves a date alike with both registers. -/
theorem run_eq_of_sameOpenDays (h : SameOpenDays one two) (hone : c.register sp = .ok one)
    (htwo : c'.register sp = .ok two) (z : Zone) (strategy : Strategy) (requested : Instant) :
    run ⟨c, z⟩ strategy sp requested = run ⟨c', z⟩ strategy sp requested := by
  have htimetable : timetable ⟨c, z⟩ strategy sp requested =
      timetable ⟨c', z⟩ strategy sp requested := by
    unfold timetable
    rw [daysAround_eq hone, daysAround_eq htwo]
    exact Timetable.ofDays_eq_of_alike (foldl_keepDay_alike (adjacent_alike h _)) z
  rw [run, run, htimetable]

/-- Services of one zone whose strategies agree on a loan manage it alike. -/
theorem manage_congr (hzone : s.zone = s'.zone) (hrun : ∀ strategy requested,
      s.run strategy loan.checkoutServicePoint requested =
        s'.run strategy loan.checkoutServicePoint requested) :
    s.manage loan policy requested now trail = s'.manage loan policy requested now trail := by
  have hcheck : ∀ limit candidate, s.checkLimit loan policy limit candidate now =
      s'.checkLimit loan policy limit candidate now := by
    intro limit candidate
    simp only [checkLimit, hzone, hrun]
  simp only [manage, hzone, hrun, hcheck]

theorem calculate_congr (hzone : s.zone = s'.zone) (hrun : ∀ strategy requested,
      s.run strategy loan.checkoutServicePoint requested =
        s'.run strategy loan.checkoutServicePoint requested) :
    s.calculate loan policy now = s'.calculate loan policy now := by
  have hinitial : s.initialDueDate loan policy = s'.initialDueDate loan policy := by
    simp only [initialDueDate, hzone]
  simp only [calculate, hinitial, manage_congr hzone hrun]

end Service

/-! ## Overdue minutes -/

theorem Overdue.minutes_eq_of_sameOpenDays {c c' : Calendar} {sp : ServicePoint}
    {one two : Register} {loan : Loan} (h : SameOpenDays one two) (hone : c.register sp = .ok one)
    (htwo : c'.register sp = .ok two) (hsp : loan.primaryServicePoint = some sp)
    (policy : FinePolicy) (now : Instant) :
    minutes c loan policy now = minutes c' loan policy now := by
  have helapsed : ∀ countClosed, elapsedMinutes c loan countClosed now =
      elapsedMinutes c' loan countClosed now := by
    intro countClosed
    unfold elapsedMinutes Calendar.daysBetween
    rw [hsp]
    cases countClosed with
    | true => rfl
    | false => simp only [hone, htwo, Result.ok_bind, h.zone_eq, h.between_eq]
  simp only [minutes, helapsed]

/-! ## Calendars -/

namespace Calendar

/-- Records of a service point with the same open days, and first days of one zone, make registers
of the same open days. -/
theorem exists_sameOpenDays {one two : List (ServicePoint × OpeningDay)} {sp : ServicePoint}
    {first first' : OpeningDay} (hone : one.lookup sp = some first)
    (htwo : two.lookup sp = some first') (hzone : first.zone = first'.zone)
    (hopen : ∀ d : OpeningDay, d.isOpen = true → (Recorded one sp d ↔ Recorded two sp d)) :
    ∃ r r', (ofRecords one).register sp = .ok r ∧ (ofRecords two).register sp = .ok r' ∧
      SameOpenDays r r' := by
  obtain ⟨r, hr, hrzone, hrdays⟩ := exists_register_of_lookup hone
  obtain ⟨r', hr', hrzone', hrdays'⟩ := exists_register_of_lookup htwo
  refine ⟨r, r', hr, hr', hrzone.trans (hzone.trans hrzone'.symm), fun d hd => ?_⟩
  rw [hrdays, hrdays', hopen d hd]

/-- Due dates and overdue minutes depend on the open days recorded for the service point and on the
zone of the first day recorded for it, and not on anything else that was recorded. -/
theorem answers_eq_of_openDays {one two : List Call} {sp : ServicePoint} {first first' : OpeningDay}
    (hone : (one.flatMap Call.entries).lookup sp = some first)
    (htwo : (two.flatMap Call.entries).lookup sp = some first') (hzone : first.zone = first'.zone)
    (hopen : ∀ d : OpeningDay, d.isOpen = true →
      (Recorded (one.flatMap Call.entries) sp d ↔ Recorded (two.flatMap Call.entries) sp d)) :
    (∀ z loan policy now, loan.checkoutServicePoint = sp →
      Service.calculate ⟨ofCalls one, z⟩ loan policy now =
        Service.calculate ⟨ofCalls two, z⟩ loan policy now) ∧
    ∀ loan policy now, loan.primaryServicePoint = some sp →
      Overdue.minutes (ofCalls one) loan policy now =
        Overdue.minutes (ofCalls two) loan policy now := by
  obtain ⟨r, r', hr, hr', hsame⟩ := exists_sameOpenDays hone htwo hzone hopen
  rw [← ofCalls_eq] at hr hr'
  refine ⟨fun z loan policy now hsp => ?_, fun loan policy now hsp => ?_⟩
  · refine Service.calculate_congr rfl fun strategy requested => ?_
    rw [hsp]
    exact Service.run_eq_of_sameOpenDays hsame hr hr' z strategy requested
  · exact Overdue.minutes_eq_of_sameOpenDays hsame hr hr' hsp policy now

/-- Night hours that replace a day around the clock, then day hours and a closed day. -/
def plainCalls : List Call :=
  [.addDay .zero (.aroundTheClock ⟨20521⟩ Zone.tokyo),
    .addDays .zero [nightHours, dayHours, .closed ⟨20522⟩ Zone.tokyo]]

/-- A day whose only hours are empty. -/
def emptyHours : OpeningDay :=
  let noon := (TimeOfDay.ofClock? 12 0 0 0).getD .midnight
  .withHours ⟨20530⟩ Zone.tokyo [⟨noon, noon⟩]

/-- The same hours the other way round, with a day of empty ones and a record of another service
point. -/
def tangledCalls : List Call :=
  [.addDays .zero [dayHours, emptyHours],
    .addDay ⟨.replicate 32 (Fin.last 15), rfl⟩ (.aroundTheClock ⟨20522⟩ Zone.utc),
    .addDay .zero nightHours]

theorem answers_eq_of_openDays_tangled :
    let loan := Loan.ofCheckout "loan" (.ofSecond 1772506800) (.ofSecond 1773061200) .zero
    let week := LoanPolicy.rolling "week" ⟨1, .weeks⟩ .beginningOfNextOpenHours
    let fine : FinePolicy := ⟨"fine", some false, none, none⟩
    let now : Instant := .ofSecond 1773190800
    (plainCalls.flatMap Call.entries).lookup .zero = some (.aroundTheClock ⟨20521⟩ Zone.tokyo) ∧
    (tangledCalls.flatMap Call.entries).lookup .zero = some dayHours ∧
    Service.calculate ⟨ofCalls plainCalls, Zone.tokyo⟩ loan week now =
      Service.calculate ⟨ofCalls tangledCalls, Zone.tokyo⟩ loan week now ∧
    (Service.calculate ⟨ofCalls plainCalls, Zone.tokyo⟩ loan week now).map (·.dueDate) =
      .ok (.ofSecond 1773187200) ∧
    Overdue.minutes (ofCalls plainCalls) loan fine now =
      Overdue.minutes (ofCalls tangledCalls) loan fine now ∧
    Overdue.minutes (ofCalls plainCalls) loan fine now = .ok 300 := by
  intro loan week fine now
  have hplain : (plainCalls.flatMap Call.entries).lookup .zero =
      some (.aroundTheClock ⟨20521⟩ Zone.tokyo) := by decide +kernel
  have htangled : (tangledCalls.flatMap Call.entries).lookup .zero = some dayHours := by
    decide +kernel
  have hopen : ∀ d : OpeningDay, d.isOpen = true →
      (Recorded (plainCalls.flatMap Call.entries) .zero d ↔
        Recorded (tangledCalls.flatMap Call.entries) .zero d) := by
    have hdays : ((ofRecords (plainCalls.flatMap Call.entries)).register? .zero).map (·.days) =
        some [nightHours, .closed ⟨20522⟩ Zone.tokyo, dayHours] := by decide +kernel
    have hdays' : ((ofRecords (tangledCalls.flatMap Call.entries)).register? .zero).map (·.days) =
        some [nightHours, dayHours, emptyHours] := by decide +kernel
    intro d hd
    rw [recorded_iff_mem_days hdays, recorded_iff_mem_days hdays']
    simp only [List.mem_cons, List.not_mem_nil, or_false]
    refine ⟨?_, ?_⟩
    · rintro (rfl | rfl | rfl)
      · exact .inl rfl
      · cases hd
      · exact .inr (.inl rfl)
    · rintro (rfl | rfl | rfl)
      · exact .inl rfl
      · exact .inr (.inr rfl)
      · exact absurd hd (by decide +kernel)
  obtain ⟨hdue, hminutes⟩ := answers_eq_of_openDays hplain htangled rfl hopen
  refine ⟨hplain, htangled, hdue Zone.tokyo loan week now rfl, ?_,
    hminutes loan fine now rfl, by cbv⟩
  have hinitial : Service.initialDueDate ⟨ofCalls plainCalls, Zone.tokyo⟩ loan week =
      .ok (.ofSecond 1773154799) := by decide +kernel
  rw [Service.map_dueDate_calculate, hinitial, Result.ok_bind]
  cbv

end Calendar

end Circulation
