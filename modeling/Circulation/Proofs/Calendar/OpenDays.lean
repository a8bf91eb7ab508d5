import Circulation.Proofs.Calendar.Adjacent
import Circulation.Timetable.Basic
import Mathlib.Data.List.Forall2
import Mathlib.Data.List.Sort

/-!
# Registers with the same open days

Two days are alike if they are equal or closed days of one date. Registers of one zone with the same
open days give alike days around every date and the same open days between two dates, and alike days
have the same timetable.
-/

namespace Circulation

open List (Forall₂)

/-! ## Alike days -/

namespace OpeningDay

/-- The days are equal, or both are closed on the same date. -/
def Alike (d e : OpeningDay) : Prop :=
  d = e ∨ d.date = e.date ∧ d.isOpen = false ∧ e.isOpen = false

variable {d e : OpeningDay}

theorem Alike.date_eq (h : Alike d e) : d.date = e.date := by
  rcases h with rfl | ⟨hdate, -⟩
  · rfl
  · exact hdate

theorem Alike.isOpen_eq (h : Alike d e) : d.isOpen = e.isOpen := by
  rcases h with rfl | ⟨-, hd, he⟩
  · rfl
  · rw [hd, he]

theorem Alike.openSpans_eq (h : Alike d e) : d.openSpans = e.openSpans := by
  rcases h with rfl | ⟨-, hd, he⟩
  · rfl
  · rw [openSpans, openSpans, openWindows_eq_nil hd, openWindows_eq_nil he]
    rfl

end OpeningDay

open OpeningDay (Alike)

namespace Timetable

variable {days others : List OpeningDay}

theorem dateRange_map (days : List OpeningDay) : dateRange days =
    match days.map (·.date) with
    | [] => none
    | date :: rest => some (rest.foldl min date, rest.foldl max date) := by
  cases days with
  | nil => rfl
  | cons d rest => simp [dateRange, List.foldl_map]

theorem ofDays_eq_of_alike (h : Forall₂ Alike days others) (z : Zone) :
    ofDays days z = ofDays others z := by
  have hdates : days.map (·.date) = others.map (·.date) := by
    rw [← List.forall₂_eq_eq_eq, List.forall₂_map_left_iff, List.forall₂_map_right_iff]
    exact h.imp fun _ _ => Alike.date_eq
  have hopenSpans : days.mapM OpeningDay.openSpans = others.mapM OpeningDay.openSpans := by
    clear hdates
    induction h with
    | nil => rfl
    | cons hday _ ih => rw [List.mapM_cons, List.mapM_cons, hday.openSpans_eq, ih]
  rw [ofDays, ofDays, dateRange_map, dateRange_map, hdates, openTime, openTime, hopenSpans]

end Timetable

/-! ## Alike registers -/

namespace Register

variable {one two : Register} {date : Date}

/-- The registers are of one zone and have the same open days. -/
structure SameOpenDays (one two : Register) : Prop where
  zone_eq : one.zone = two.zone
  mem_iff : ∀ d : OpeningDay, d.isOpen = true → (d ∈ one.days ↔ d ∈ two.days)

theorem SameOpenDays.filter_eq (h : SameOpenDays one two) :
    one.days.filter (·.isOpen) = two.days.filter (·.isOpen) := by
  have hirrefl : Std.Irrefl fun a b : OpeningDay => a.date < b.date := ⟨fun _ => lt_irrefl _⟩
  have hasymm : Std.Antisymm fun a b : OpeningDay => a.date < b.date :=
    ⟨fun _ _ hab hba => absurd hab hba.asymm⟩
  refine (one.sorted.filter _).eq_of_mem_iff (two.sorted.filter _) fun d => ?_
  rw [List.mem_filter, List.mem_filter]
  exact and_congr_left (h.mem_iff d)

theorem SameOpenDays.openBefore_eq (h : SameOpenDays one two) (date : Date) :
    one.openBefore date = two.openBefore date := by
  have hsplit : ∀ days : List OpeningDay, (days.filter fun d => d.date < date ∧ d.isOpen) =
      (days.filter (·.isOpen)).filter fun d => d.date < date := by
    intro days
    rw [List.filter_filter]
    simp
  rw [openBefore, openBefore, hsplit, hsplit, h.filter_eq, h.zone_eq]

theorem SameOpenDays.openAfter_eq (h : SameOpenDays one two) (date : Date) :
    one.openAfter date = two.openAfter date := by
  have hsplit : ∀ (days : List OpeningDay) (following : Date),
      (days.find? fun d => following ≤ d.date ∧ d.isOpen) =
        (days.filter (·.isOpen)).find? fun d => following ≤ d.date := by
    intro days following
    rw [List.find?_filter]
    simp [and_comm]
  rw [openAfter, openAfter]
  simp only [hsplit, h.filter_eq, h.zone_eq]

theorem SameOpenDays.symm (h : SameOpenDays one two) : SameOpenDays two one :=
  ⟨h.zone_eq.symm, fun d hd => (h.mem_iff d hd).symm⟩

theorem SameOpenDays.day_eq_of_isOpen (h : SameOpenDays one two)
    (hopen : (one.day date).isOpen = true) : two.day date = one.day date := by
  rcases one.day_cases date with ⟨hmem, hdate⟩ | ⟨hclosed, -⟩
  · have hday := day_eq ((h.mem_iff _ hopen).mp hmem)
    rwa [hdate] at hday
  · rw [hclosed, OpeningDay.isOpen_closed] at hopen
    cases hopen

theorem SameOpenDays.day_alike (h : SameOpenDays one two) (date : Date) :
    Alike (one.day date) (two.day date) := by
  cases hone : (one.day date).isOpen with
  | true => exact .inl (h.day_eq_of_isOpen hone).symm
  | false =>
    cases htwo : (two.day date).isOpen with
    | true => exact .inl (h.symm.day_eq_of_isOpen htwo)
    | false => exact .inr ⟨(one.day_date date).trans (two.day_date date).symm, hone, htwo⟩

theorem SameOpenDays.adjacent_alike (h : SameOpenDays one two) (date : Date) :
    Forall₂ Alike (one.adjacent date).days (two.adjacent date).days := by
  refine .cons (.inl (h.openBefore_eq date)) (.cons (h.day_alike date) (.cons ?_ .nil))
  exact .inl (h.openAfter_eq date)

theorem SameOpenDays.between_eq (h : SameOpenDays one two) (first last : Date) :
    one.between first last false = two.between first last false := by
  have hsplit : ∀ days : List OpeningDay, (days.filter fun d =>
      first ≤ d.date ∧ d.date ≤ last ∧ d.date < Date.last ∧ d.isOpen) =
        (days.filter (·.isOpen)).filter fun d =>
          first ≤ d.date ∧ d.date ≤ last ∧ d.date < Date.last := by
    intro days
    rw [List.filter_filter]
    simp [Bool.and_assoc]
  simp only [between, Bool.false_eq_true, if_false, hsplit, h.filter_eq]

end Register

end Circulation
