import Circulation.Proofs.Zone.Resolve
import Mathlib.Data.Int.Init

/-!
# Skipped local times

A clock that is never set goes through all local times. A zone's clock therefore shows every local
time that it gets as far as, or was set forward past it at one of the zone's changes. Two local
times can resolve to instants in the wrong order only where the clock got past the earlier of the
two in that way.
-/

namespace Circulation

namespace Zone

variable {z : Zone} {l l' : LocalTime} {t start stop : Instant} {second c : Int}

/-- The second of local time that the clock shows at a second of universal time. -/
def clock (z : Zone) (second : Int) : Int := second + z.offsetAt second

/-- The clock is set forward past the local time at the second `c`. -/
def SkipsAt (z : Zone) (l : LocalTime) (c : Int) : Prop :=
  z.clock (c - 1) < l.second ∧ l.second < z.clock c

instance (z : Zone) (l : LocalTime) (c : Int) : Decidable (z.SkipsAt l c) :=
  inferInstanceAs (Decidable (_ ∧ _))

theorem clock_of_toLocal (h : z.toLocal t = l) : z.clock t.second = l.second := by
  rw [← h]
  rfl

theorem toLocal_eq_of_clock {nano : Nat} (hnano : nano < 2000000000)
    (hsecond : z.clock second = l.second) (heq : nano = l.nano) :
    z.toLocal ⟨second, nano, hnano⟩ = l := by
  rw [Moment.ext_iff']
  exact ⟨hsecond, heq⟩

/-! ## Changes of the offset -/

theorem offsetAt_of_forall_lt (h : ∀ change ∈ z.changes, second < change.1) :
    z.offsetAt second = z.base := by
  unfold offsetAt
  rw [List.foldl_ext (g := fun offset _ => offset), List.foldl_fixed]
  intro offset change hchange
  rw [if_neg (h change hchange).not_ge]

/-- The clock is set forward only where the zone has a change. -/
theorem SkipsAt.exists_change (h : z.SkipsAt l c) : ∃ change ∈ z.changes, change.1 = c := by
  by_contra hnone
  have hsame : z.offsetAt (c - 1) = z.offsetAt c := by
    refine List.foldl_ext _ _ _ fun offset change hchange => ?_
    have hne : change.1 ≠ c := fun heq => hnone ⟨change, hchange, heq⟩
    have hiff : change.1 ≤ c - 1 ↔ change.1 ≤ c := by omega
    rw [if_congr hiff rfl rfl]
  obtain ⟨hbefore, hafter⟩ := h
  unfold clock at hbefore hafter
  omega

theorem exists_lt_changes (changes : List (Int × Int)) : ∃ b, ∀ change ∈ changes, b < change.1 := by
  induction changes with
  | nil => exact ⟨0, by simp⟩
  | cons change changes ih =>
    obtain ⟨b, hb⟩ := ih
    refine ⟨min b (change.1 - 1), fun other hother => ?_⟩
    rcases List.mem_cons.mp hother with rfl | hother
    · omega
    · have := hb other hother
      omega

/-- Early enough the clock shows any time early. -/
theorem exists_clock_lt (z : Zone) (n second : Int) : ∃ b ≤ second, z.clock b < n := by
  obtain ⟨b, hb⟩ := exists_lt_changes z.changes
  refine ⟨min (min b second) (n - z.base - 1), by omega, ?_⟩
  have hbase : z.offsetAt (min (min b second) (n - z.base - 1)) = z.base := by
    refine offsetAt_of_forall_lt fun change hchange => ?_
    have := hb change hchange
    omega
  rw [clock, hbase]
  omega

/-- What the clock has got as far as it has shown, or else it was set forward past it. -/
theorem exists_clock_eq_or_skipsAt (h : l.second ≤ z.clock second) :
    ∃ c ≤ second, z.clock c = l.second ∨ z.SkipsAt l c := by
  obtain ⟨b, hb, hlt⟩ := exists_clock_lt z l.second second
  -- From `b` on, look for the first second at which the clock is not behind the local time.
  induction second, hb using Int.leInduction with
  | base => exact absurd h hlt.not_ge
  | succ n hbn ih =>
    by_cases hn : l.second ≤ z.clock n
    · obtain ⟨c, hc, hcases⟩ := ih hn
      exact ⟨c, by omega, hcases⟩
    · refine ⟨n + 1, le_rfl, ?_⟩
      rcases h.eq_or_lt with heq | hpast
      · exact .inl heq.symm
      · refine .inr ⟨?_, hpast⟩
        rw [Int.add_sub_cancel]
        exact lt_of_not_ge hn

/-! ## The order of resolved local times -/

/-- By the instant `t` the clock was set forward past the local time, or had shown it only before
the first instant that can be represented. -/
def PassesOver (z : Zone) (l : LocalTime) (t : Instant) : Prop :=
  (∃ c ≤ t.second, z.SkipsAt l c) ∨ ∃ u < t, z.toLocal u = l ∧ ¬ u.InRange

/-- The changes and the offsets of the zone show that the clock never passes over a local time. -/
theorem not_passesOver (hskips : ∀ change ∈ z.changes, ¬ z.SkipsAt l change.1)
    (hrange : ∀ offset ∈ z.offsets, (instantAt l offset).InRange) : ¬ z.PassesOver l t := by
  rintro (⟨c, -, hskip⟩ | ⟨u, -, rfl, hearly⟩)
  · obtain ⟨change, hchange, rfl⟩ := hskip.exists_change
    exact hskips change hchange hskip
  · have hu := hrange _ (offsetAt_mem_offsets z u.second)
    rw [instantAt_toLocal] at hu
    exact hearly hu

/-- A clock that shows `l'` or an hour more at an instant has shown an earlier local time before
that, unless it was set forward past it. -/
theorem exists_shown_or_passesOver (hlt : l < l')
    (ht : z.toLocal t = l' ∨ z.toLocal t = hourLater l') :
    (∃ u ∈ z.shownAt l, u < t) ∨ z.PassesOver l t := by
  have hclock : z.clock t.second = l'.second ∧ t.nano = l'.nano ∨
      z.clock t.second = l'.second + 3600 := by
    rcases ht with ht | ht
    · exact .inl ⟨clock_of_toLocal ht, congrArg Moment.nano ht⟩
    · exact .inr ((clock_of_toLocal ht).trans (second_hourLater l'))
  rw [Moment.lt_def] at hlt
  have hpast : l.second ≤ z.clock t.second := by omega
  obtain ⟨c, hc, heq | hskip⟩ := exists_clock_eq_or_skipsAt hpast
  · have hshown := toLocal_eq_of_clock l.nano_lt heq rfl
    have hbefore : (⟨c, l.nano, l.nano_lt⟩ : Instant) < t := by
      rw [Moment.lt_def]
      simp only
      rcases hc.eq_or_lt with rfl | hc
      · omega
      · exact .inl hc
    by_cases hrange : (⟨c, l.nano, l.nano_lt⟩ : Instant).InRange
    · exact .inl ⟨_, ⟨hshown, hrange⟩, hbefore⟩
    · exact .inr (.inr ⟨_, hbefore, hshown, hrange⟩)
  · exact .inr (.inl ⟨c, hc, hskip⟩)

/-- What a local time resolves to is earlier than an instant just where the clock shows by then the
local time, or the one an hour later if it never shows that. -/
theorem resolve_lt_iff (hstart : z.resolve l = .ok start) :
    start < stop ↔ (∃ u ∈ z.shownAt l, u < stop) ∨
      z.shownAt l = ∅ ∧ ∃ u ∈ z.shownAt (hourLater l), u < stop := by
  rcases resolve_eq_ok_iff.mp hstart with hleast | ⟨hempty, -, hleast⟩
  · refine ⟨fun hlt => .inl ⟨start, hleast.1, hlt⟩, ?_⟩
    rintro (⟨u, hu, hlt⟩ | ⟨hempty, -⟩)
    · exact (hleast.2 hu).trans_lt hlt
    · exact absurd hempty hleast.nonempty.ne_empty
  · refine ⟨fun hlt => .inr ⟨hempty, start, hleast.1, hlt⟩, ?_⟩
    rintro (⟨u, hu, -⟩ | ⟨-, u, hu, hlt⟩)
    · rw [hempty] at hu
      cases hu
    · exact (hleast.2 hu).trans_lt hlt

/-- Two local times resolve in their order unless the clock passed over the earlier one. -/
theorem resolve_lt_or_passesOver (hlt : l < l') (hstart : z.resolve l = .ok start)
    (hstop : z.resolve l' = .ok stop) : start < stop ∨ z.PassesOver l stop :=
  (exists_shown_or_passesOver hlt (toLocal_of_resolve hstop)).imp_left
    fun hshown => (resolve_lt_iff hstart).mpr (.inl hshown)

end Zone

end Circulation
