import Circulation.Proofs.Time.Order
import Circulation.Zone.Basic
import Mathlib.Data.List.Basic
import Mathlib.Order.Bounds.Basic

/-!
# Resolving local times

The instants that a clock shows as a local time do not depend on how the zone lists its offsets. A
local time resolves to the earliest instant that shows it, or else to the earliest one that shows
the local time an hour later, if the calendar has that local time.
-/

namespace Circulation

namespace Zone

variable {z : Zone} {l : LocalTime} {t : Instant}

theorem offsetAt_mem_offsets (z : Zone) (second : Int) : z.offsetAt second ∈ z.offsets := by
  have hfold : ∀ (changes : List (Int × Int)) (base : Int),
      changes.foldl (fun offset change => if change.1 ≤ second then change.2 else offset) base ∈
        base :: changes.map (·.2) := by
    intro changes
    induction changes with
    | nil => intro base; simp
    | cons change changes ih =>
      intro base
      rw [List.foldl_cons, List.map_cons]
      by_cases hchange : change.1 ≤ second
      · rw [if_pos hchange]
        exact List.mem_cons_of_mem _ (ih change.2)
      · rw [if_neg hchange]
        rcases List.mem_cons.mp (ih base) with heq | hmem
        · rw [heq]
          exact List.mem_cons_self
        · exact List.mem_cons_of_mem _ (List.mem_cons_of_mem _ hmem)
  unfold offsets
  rw [List.mem_eraseDups]
  exact hfold z.changes z.base

theorem instantAt_toLocal (z : Zone) (t : Instant) :
    instantAt (z.toLocal t) (z.offsetAt t.second) = t := by
  rw [Moment.ext_iff']
  simp only [instantAt, toLocal]
  exact ⟨by omega, trivial⟩

/-- The representable instants at which the zone's clock shows the local time. -/
def shownAt (z : Zone) (l : LocalTime) : Set Instant := {t | z.toLocal t = l ∧ t.InRange}

theorem mem_instantsOf_iff : t ∈ z.instantsOf l ↔ t ∈ z.shownAt l := by
  unfold instantsOf
  rw [List.mem_filter, decide_eq_true_eq]
  refine and_iff_right_iff_imp.mpr ?_
  rintro ⟨rfl, -⟩
  exact List.mem_map.mpr ⟨_, offsetAt_mem_offsets z t.second, instantAt_toLocal z t⟩

theorem earliest?_eq_some_iff : z.earliest? l = some t ↔ IsLeast (z.shownAt l) t := by
  unfold earliest?
  rw [List.min?_eq_some_iff]
  simp only [mem_instantsOf_iff]
  rfl

theorem earliest?_eq_none_iff : z.earliest? l = none ↔ z.shownAt l = ∅ := by
  unfold earliest?
  rw [List.min?_eq_none_iff, List.eq_nil_iff_forall_not_mem, Set.eq_empty_iff_forall_notMem]
  simp only [mem_instantsOf_iff]

theorem resolve_of_earliest? (h : z.earliest? l = some t) : z.resolve l = .ok t := by
  unfold resolve
  rw [h]

/-- A local time that the clock never shows stands for the one an hour later, if there is one. -/
theorem resolve_of_earliest?_none (h : z.earliest? l = none) :
    z.resolve l = if (hourLater l).InRange then
      (z.earliest? (hourLater l)).elim (.error (.invalidLocalTime l z.name)) .ok
    else .error (.pastCalendar l) := by
  unfold resolve Moment.checked?
  rw [h]
  by_cases hrange : (hourLater l).InRange
  · simp only [if_pos hrange]
    cases z.earliest? (hourLater l) <;> rfl
  · simp only [if_neg hrange]

/-- What a local time resolves to, and when it resolves at all. -/
theorem resolve_eq_ok_iff : z.resolve l = .ok t ↔ IsLeast (z.shownAt l) t ∨
    z.shownAt l = ∅ ∧ (hourLater l).InRange ∧ IsLeast (z.shownAt (hourLater l)) t := by
  rw [← earliest?_eq_some_iff, ← earliest?_eq_some_iff, ← earliest?_eq_none_iff]
  cases hfound : z.earliest? l with
  | some first =>
    rw [resolve_of_earliest? hfound]
    simp
  | none =>
    rw [resolve_of_earliest?_none hfound]
    cases z.earliest? (hourLater l) <;> by_cases hrange : (hourLater l).InRange <;> simp [hrange]

/-- A local time that the clock shows resolves to the first instant that shows it. -/
theorem exists_resolve_eq_ok (h : (z.shownAt l).Nonempty) :
    ∃ t, z.resolve l = .ok t ∧ IsLeast (z.shownAt l) t := by
  cases hfound : z.earliest? l with
  | none => exact absurd (earliest?_eq_none_iff.mp hfound) h.ne_empty
  | some t =>
    have hleast := earliest?_eq_some_iff.mp hfound
    exact ⟨t, resolve_eq_ok_iff.mpr (.inl hleast), hleast⟩

theorem second_hourLater (l : LocalTime) : (hourLater l).second = l.second + 3600 := by
  unfold hourLater Moment.addSeconds
  split <;> rfl

/-- A local time resolves to an instant that shows it or shows the local time an hour later. -/
theorem toLocal_of_resolve (ht : z.resolve l = .ok t) :
    z.toLocal t = l ∨ z.toLocal t = hourLater l := by
  rcases resolve_eq_ok_iff.mp ht with hsame | ⟨-, -, hlater⟩
  · exact .inl hsame.1.1
  · exact .inr hlater.1.1

theorem nano_of_resolve (ht : z.resolve l = .ok t) (hl : ¬ l.IsLeapSecond) : t.nano = l.nano := by
  rcases toLocal_of_resolve ht with hshown | hshown
  · exact congrArg Moment.nano hshown
  · rw [hourLater, Moment.addSeconds_of_not_leap hl] at hshown
    exact congrArg Moment.nano hshown

theorem not_leap_of_resolve (ht : z.resolve l = .ok t) (hl : ¬ l.IsLeapSecond) :
    ¬ t.IsLeapSecond := by
  rwa [Moment.IsLeapSecond, nano_of_resolve ht hl]

/-- What a local time of the first date or before resolves to is shown no later than on the date
after the first. -/
theorem localDate_of_resolve_early (hl : l.date ≤ Date.first) (ht : z.resolve l = .ok t) :
    z.localDate t ≤ Date.first.addDays 1 := by
  have hsecond := second_hourLater l
  rw [Date.le_def] at hl ⊢
  rcases toLocal_of_resolve ht with hshown | hshown
  all_goals
    simp only [localDate, hshown, Moment.date, Date.addDays] at hl ⊢
    omega

end Zone

end Circulation
