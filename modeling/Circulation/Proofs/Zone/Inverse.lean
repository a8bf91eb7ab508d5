import Circulation.Proofs.Zone.Resolve
import Circulation.Zone.Named

/-!
# Resolving what a clock shows

Resolving inverts the clock of a zone. What the clock shows at an instant resolves to the first
instant at which it shows the same. What it never shows resolves by the local time an hour later,
if the calendar has that, or, just where the clock never shows that either, not at all.
-/

namespace Circulation

namespace Zone

variable {z : Zone} {l : LocalTime} {t : Instant} {e : Error}

/-- What goes wrong with a local time that does not resolve. -/
theorem resolve_eq_error_iff : z.resolve l = .error e ↔ z.shownAt l = ∅ ∧
    (¬ (hourLater l).InRange ∧ e = .pastCalendar l ∨
      (hourLater l).InRange ∧ z.shownAt (hourLater l) = ∅ ∧ e = .invalidLocalTime l z.name) := by
  rw [← earliest?_eq_none_iff, ← earliest?_eq_none_iff]
  cases hfound : z.earliest? l with
  | some first =>
    rw [resolve_of_earliest? hfound]
    simp
  | none =>
    rw [resolve_of_earliest?_none hfound]
    cases z.earliest? (hourLater l) <;> by_cases hrange : (hourLater l).InRange <;>
      simp [hrange, eq_comm]

theorem exists_resolve_toLocal (z : Zone) (ht : t.InRange) :
    ∃ first, z.resolve (z.toLocal t) = .ok first ∧ IsLeast (z.shownAt (z.toLocal t)) first :=
  exists_resolve_eq_ok ⟨t, rfl, ht⟩

theorem resolve_eq_ok_iff_of_skipped (hskipped : z.shownAt l = ∅) (hrange : (hourLater l).InRange) :
    z.resolve l = .ok t ↔ IsLeast (z.shownAt (hourLater l)) t := by
  rw [resolve_eq_ok_iff, or_iff_right fun hleast => hleast.nonempty.ne_empty hskipped,
    and_iff_right hskipped, and_iff_right hrange]

theorem resolve_eq_error_iff_of_skipped (hskipped : z.shownAt l = ∅)
    (hrange : (hourLater l).InRange) : z.resolve l = .error e ↔
      z.shownAt (hourLater l) = ∅ ∧ e = .invalidLocalTime l z.name := by
  rw [resolve_eq_error_iff, and_iff_right hskipped, or_iff_right fun hpast => hpast.1 hrange,
    and_iff_right hrange]

/-- A local time that the clock shows resolves to the first instant that shows it. One that it never
shows, in a calendar that goes on for an hour, resolves to the first instant that shows an hour
more, or to an error just where none does. -/
theorem resolve_inverts_toLocal (z : Zone) :
    (∀ t : Instant, t.InRange → ∃ first, z.resolve (z.toLocal t) = .ok first ∧
      IsLeast (z.shownAt (z.toLocal t)) first ∧ first ≤ t ∧ z.toLocal first = z.toLocal t) ∧
    ∀ l, z.shownAt l = ∅ → (hourLater l).InRange →
      (∀ t, z.resolve l = .ok t ↔ IsLeast (z.shownAt (hourLater l)) t) ∧
      ∀ e, z.resolve l = .error e ↔
        z.shownAt (hourLater l) = ∅ ∧ e = .invalidLocalTime l z.name := by
  refine ⟨fun t ht => ?_, fun l hskipped hrange => ⟨fun t => ?_, fun e => ?_⟩⟩
  · obtain ⟨first, hfirst, hleast⟩ := exists_resolve_toLocal z ht
    exact ⟨first, hfirst, hleast, hleast.2 ⟨rfl, ht⟩, hleast.1.1⟩
  · exact resolve_eq_ok_iff_of_skipped hskipped hrange
  · exact resolve_eq_error_iff_of_skipped hskipped hrange

/-- Half past eleven comes twice at the end of summer time in Sao Paulo, half past midnight is left
out at its beginning, and Apia has no 30 December in 2011. -/
theorem resolve_inverts_toLocal_changes :
    let repeated : Instant := .ofSecond 1518921000
    let leftOut : LocalTime := .ofSecond 1541291400
    let noDay : LocalTime := .ofSecond 1325239200
    repeated.InRange ∧ saoPaulo.shownAt leftOut = ∅ ∧ (hourLater leftOut).InRange ∧
    apia.shownAt noDay = ∅ ∧ (hourLater noDay).InRange ∧
    (∃ first, saoPaulo.resolve (saoPaulo.toLocal repeated) = .ok first ∧ first < repeated ∧
      saoPaulo.toLocal first = saoPaulo.toLocal repeated) ∧
    IsLeast (saoPaulo.shownAt (hourLater leftOut)) (.ofSecond 1541302200) ∧
    apia.shownAt (hourLater noDay) = ∅ := by
  intro repeated leftOut noDay
  have hrange : repeated.InRange := by decide
  have hleftOutRange : (hourLater leftOut).InRange := by decide
  have hnoDayRange : (hourLater noDay).InRange := by decide
  have hleftOut : saoPaulo.shownAt leftOut = ∅ := earliest?_eq_none_iff.mp (by decide)
  have hnoDay : apia.shownAt noDay = ∅ := earliest?_eq_none_iff.mp (by decide)
  have hearlier : saoPaulo.resolve (saoPaulo.toLocal repeated) = .ok (.ofSecond 1518917400) := by
    decide
  have hlater : saoPaulo.resolve leftOut = .ok (.ofSecond 1541302200) := by decide
  have hnever : apia.resolve noDay = .error (.invalidLocalTime noDay apia.name) := by decide
  obtain ⟨hshown, hskipped⟩ := resolve_inverts_toLocal saoPaulo
  obtain ⟨first, hfirst, -, -, hsame⟩ := hshown repeated hrange
  obtain rfl := Except.ok.inj (hearlier.symm.trans hfirst)
  refine ⟨hrange, hleftOut, hleftOutRange, hnoDay, hnoDayRange,
    ⟨_, hearlier, by decide, hsame⟩, ?_, ?_⟩
  · exact ((hskipped leftOut hleftOut hleftOutRange).1 _).mp hlater
  · exact (((resolve_inverts_toLocal apia).2 noDay hnoDay hnoDayRange).2 _ |>.mp hnever).1

/-- An hour after the leap second 02:30:60, which the clock of New York skips on 8 March 2026, it is
03:30:59 and not 03:30:60. An hour after half past eleven on the last day the calendar is over. -/
theorem resolve_skipped_otherwise :
    let leap : LocalTime := ⟨1772937059, 1000000000, by decide⟩
    let sameClock : LocalTime := ⟨leap.second + 3600, leap.nano, by decide⟩
    let late : LocalTime := Date.last.at ⟨84600, 0, by decide, by decide⟩
    (newYork.shownAt leap = ∅ ∧ ∃ t, IsLeast (newYork.shownAt sameClock) t ∧
      newYork.resolve leap = .ok (.ofSecond t.second) ∧ newYork.resolve leap ≠ .ok t) ∧
    newYork.shownAt late = ∅ ∧ newYork.shownAt (hourLater late) = ∅ ∧
    newYork.resolve late = .error (.pastCalendar late) ∧
    newYork.resolve late ≠ .error (.invalidLocalTime late newYork.name) := by
  intro leap sameClock late
  have hleap : newYork.shownAt leap = ∅ := earliest?_eq_none_iff.mp (by decide +kernel)
  have hlate : newYork.shownAt late = ∅ := earliest?_eq_none_iff.mp (by decide +kernel)
  have hlater : newYork.shownAt (hourLater late) = ∅ :=
    earliest?_eq_none_iff.mp (by decide +kernel)
  have hshown : IsLeast (newYork.shownAt sameClock) ⟨1772955059, 1000000000, by decide⟩ :=
    earliest?_eq_some_iff.mp (by decide +kernel)
  exact ⟨⟨hleap, _, hshown, by decide +kernel, by decide +kernel⟩, hlate, hlater,
    by decide +kernel, by decide +kernel⟩

end Zone

end Circulation
