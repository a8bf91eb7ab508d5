import Circulation.Proofs.Overdue.Length
import Circulation.Proofs.Timetable.Unbroken

/-!
# Counted minutes

The minutes counted in some days are the length of their open time in whole minutes, in any zones.
Windows may overlap, repeat or come in any order, and those that resolve empty or reversed hold no
time. What holds of lengths of sets then holds of the minutes, up to the rounding.
-/

namespace Circulation

open OpeningDay

namespace Overdue

variable {days more : List OpeningDay} {a b mid : Instant}

/-- Hours of the days resolve, and none of them begin or end in a leap second. -/
structure Countable (days : List OpeningDay) : Prop where
  exists_openSpans : ∀ d ∈ days, ∃ spans, d.openSpans = .ok spans
  noLeap : ∀ d ∈ days, d.NoLeap

theorem Countable.of_subset (h : Countable more) (hsub : days ⊆ more) : Countable days :=
  ⟨fun d hd => h.exists_openSpans d (hsub hd), fun d hd => h.noLeap d (hsub hd)⟩

/-! ## Minutes and length -/

/-- Whether or not all windows hold time, merging gives spans that begin and end where windows
do. -/
theorem ordinary_of_openTime {spans : List (Span .utc)} (h : Timetable.openTime days = .ok spans)
    (hleap : ∀ d ∈ days, d.NoLeap) : OrdinaryEnds spans := by
  obtain ⟨all, hall, rfl⟩ := Timetable.exists_windows_of_openTime h
  have hwindow : ∀ w ∈ all, ¬ w.start.IsLeapSecond ∧ ¬ w.stop.IsLeapSecond := by
    intro w hw
    obtain ⟨d, hd, hdw⟩ := (hall w).mp hw
    exact (hleap d hd).span_not_leap hdw
  intro s hs
  obtain ⟨⟨w, hw, hstart⟩, w', hw', hstop⟩ := Span.ends_of_mem_merge s hs
  rw [← hstart, ← hstop]
  exact ⟨(hwindow w hw).1, (hwindow w' hw').2⟩

theorem openMinutes_of_openTime {spans : List (Span .utc)} (h : Timetable.openTime days = .ok spans)
    (hleap : ∀ d ∈ days, d.NoLeap) (ha : ¬ a.IsLeapSecond) (hb : ¬ b.IsLeapSecond) :
    openMinutes days a b = .ok
      (length (stretch a b ∩ openMoments {d | d ∈ days}) / (60 * nanosPerSecond) : Nat) := by
  unfold openMinutes
  rw [h, Result.ok_bind, totalNanos_clip (Timetable.apart_of_openTime h)
    (ordinary_of_openTime h hleap) ha hb, Timetable.union_of_openTime h]
  rfl

theorem Countable.openMinutes_eq (h : Countable days) (ha : ¬ a.IsLeapSecond)
    (hb : ¬ b.IsLeapSecond) : openMinutes days a b = .ok
      (length (stretch a b ∩ openMoments {d | d ∈ days}) / (60 * nanosPerSecond) : Nat) := by
  obtain ⟨spans, hspans⟩ := Timetable.exists_openTime h.exists_openSpans
  exact openMinutes_of_openTime hspans h.noLeap ha hb

/-- Counting succeeds only where all hours resolve. -/
theorem countable_of_openMinutes {n : Int} (h : openMinutes days a b = .ok n)
    (hleap : ∀ d ∈ days, d.NoLeap) : Countable days := by
  refine ⟨fun d hd => ?_, hleap⟩
  unfold openMinutes Timetable.openTime at h
  obtain ⟨merged, hmerged, -⟩ := Result.bind_eq_ok_iff.mp h
  obtain ⟨lists, hlists, -⟩ := Result.bind_eq_ok_iff.mp hmerged
  obtain ⟨spans, -, hspans⟩ := Result.exists_of_mapM_eq_ok hlists hd
  exact ⟨spans, hspans⟩

/-! ## Other days and other stretches -/

/-- The same days in any order and number count the same. -/
theorem Countable.openMinutes_congr (h : Countable days) (ha : ¬ a.IsLeapSecond)
    (hb : ¬ b.IsLeapSecond) (hmem : ∀ d, d ∈ more ↔ d ∈ days) :
    openMinutes more a b = openMinutes days a b := by
  have hmore : Countable more := h.of_subset fun d hd => (hmem d).mp hd
  have hset : {d | d ∈ more} = {d | d ∈ days} := Set.ext hmem
  rw [h.openMinutes_eq ha hb, hmore.openMinutes_eq ha hb, hset]

theorem openMoments_mono {some all : Set OpeningDay} (h : some ⊆ all) :
    openMoments some ⊆ openMoments all := by
  rintro m ⟨w, ⟨d, hd, hw⟩, hm⟩
  exact ⟨w, ⟨d, h hd, hw⟩, hm⟩

/-- More days and a longer stretch count no less. -/
theorem Countable.openMinutes_grow {b' : Instant} (h : Countable more) (ha : ¬ a.IsLeapSecond)
    (hb : ¬ b.IsLeapSecond) (hb' : ¬ b'.IsLeapSecond) (hle : b ≤ b') (hsub : days ⊆ more) :
    ∃ n k, openMinutes days a b = .ok n ∧ openMinutes more a b' = .ok k ∧ 0 ≤ n ∧ n ≤ k := by
  refine ⟨_, _, (h.of_subset hsub).openMinutes_eq ha hb, h.openMinutes_eq ha hb',
    Int.natCast_nonneg _, ?_⟩
  have hstretch : stretch a b ⊆ stretch a b' := fun m hm => ⟨hm.1, hm.2.trans_le hle⟩
  have hlength : length (stretch a b ∩ openMoments {d | d ∈ days}) ≤
      length (stretch a b' ∩ openMoments {d | d ∈ more}) :=
    length_mono (Set.inter_subset_inter hstretch (openMoments_mono hsub))
      (finite_ordinary_inter ha hb' _)
  exact Int.ofNat_le.mpr (Nat.div_le_div_right hlength)

theorem Countable.openMinutes_mono (h : Countable more) (ha : ¬ a.IsLeapSecond)
    (hb : ¬ b.IsLeapSecond) (hsub : days ⊆ more) :
    ∃ n k, openMinutes days a b = .ok n ∧ openMinutes more a b = .ok k ∧ n ≤ k := by
  obtain ⟨n, k, hn, hk, -, hle⟩ := h.openMinutes_grow ha hb hb le_rfl hsub
  exact ⟨n, k, hn, hk, hle⟩

theorem stretch_eq_empty (h : b ≤ a) : stretch a b = ∅ := by
  ext m
  refine ⟨fun hm => ?_, fun hm => hm.elim⟩
  exact absurd (hm.1.trans_lt hm.2) h.not_gt

theorem Countable.openMinutes_eq_zero (h : Countable days) (ha : ¬ a.IsLeapSecond)
    (hb : ¬ b.IsLeapSecond) (hle : b ≤ a) : openMinutes days a b = .ok 0 := by
  rw [h.openMinutes_eq ha hb, stretch_eq_empty hle]
  simp [length, ordinary]

/-- Two parts of a stretch round down to a minute less at most. -/
theorem Countable.openMinutes_halves (h : Countable days) (ha : ¬ a.IsLeapSecond)
    (hmid : ¬ mid.IsLeapSecond) (hb : ¬ b.IsLeapSecond) (ham : a ≤ mid) (hmb : mid ≤ b) :
    ∃ l r w, openMinutes days a mid = .ok l ∧ openMinutes days mid b = .ok r ∧
      openMinutes days a b = .ok w ∧ (l + r = w ∨ l + r + 1 = w) := by
  refine ⟨_, _, _, h.openMinutes_eq ha hmid, h.openMinutes_eq hmid hb, h.openMinutes_eq ha hb, ?_⟩
  rw [length_halves ha hmid hb ham hmb, nanosPerSecond]
  omega

/-- The minutes counted in some days between two instants: how they follow from the open time, and
what becomes of them with other days and between other instants. -/
structure CountsOpenTime (days : List OpeningDay) (a b : Instant) : Prop where
  eq_length : openMinutes days a b = .ok
    (length (stretch a b ∩ openMoments {d | d ∈ days}) / (60 * nanosPerSecond) : Nat)
  congr : ∀ others, (∀ d, d ∈ others ↔ d ∈ days) → openMinutes others a b = openMinutes days a b
  mono : ∀ more, Countable more → days ⊆ more →
    ∃ n k, openMinutes days a b = .ok n ∧ openMinutes more a b = .ok k ∧ n ≤ k
  reversed : b ≤ a → openMinutes days a b = .ok 0
  halves : ∀ mid, ¬ mid.IsLeapSecond → a ≤ mid → mid ≤ b →
    ∃ l r w, openMinutes days a mid = .ok l ∧ openMinutes days mid b = .ok r ∧
      openMinutes days a b = .ok w ∧ (l + r = w ∨ l + r + 1 = w)

/-- Counting minutes in any days whose hours resolve measures their open time. -/
theorem countsOpenTime (h : Countable days) (ha : ¬ a.IsLeapSecond) (hb : ¬ b.IsLeapSecond) :
    CountsOpenTime days a b where
  eq_length := h.openMinutes_eq ha hb
  congr _ hmem := h.openMinutes_congr ha hb hmem
  mono _ hmore hsub := hmore.openMinutes_mono ha hb hsub
  reversed hle := h.openMinutes_eq_zero ha hb hle
  halves _ hmid ham hmb := h.openMinutes_halves ha hmid hb ham hmb

/-- The night whose hours come out reversed, and the day after it given twice. -/
def springDays : List OpeningDay :=
  [Timetable.springNight, Timetable.springDay, Timetable.springDay]

theorem openTime_springDays : Timetable.openTime springDays = .ok
    [⟨.ofSecond 1541302200, .ofSecond 1541301300⟩,
      ⟨.ofSecond 1541329200, .ofSecond 1541358000⟩] := by
  have hspans : springDays.mapM openSpans = .ok
      [[⟨.ofSecond 1541302200, .ofSecond 1541301300⟩],
        [⟨.ofSecond 1541329200, .ofSecond 1541358000⟩],
        [⟨.ofSecond 1541329200, .ofSecond 1541358000⟩]] := by decide +kernel
  unfold Timetable.openTime Span.merge Span.sortByStart
  rw [hspans, Result.ok_bind, List.mergeSort_of_pairwise (by decide)]
  rfl

/-- Reversed hours count for nothing, and hours given twice count once. -/
theorem countsOpenTime_spring :
    Countable springDays ∧
    openMinutes springDays (.ofSecond 1541300400) (.ofSecond 1541331000) = .ok 30 ∧
    CountsOpenTime springDays (.ofSecond 1541300400) (.ofSecond 1541331000) := by
  have hcountable : Countable springDays := by
    have hdays : ∀ d ∈ springDays, d = Timetable.springNight ∨ d = Timetable.springDay := by
      simp [springDays]
    refine ⟨fun d hd => ?_, fun d hd => ?_⟩
    · rcases hdays d hd with rfl | rfl
      · exact ⟨_, Timetable.openSpans_springNight⟩
      · exact ⟨_, Timetable.openSpans_springDay⟩
    · rcases hdays d hd with rfl | rfl
      · exact noLeap_withHours (by decide)
      · exact noLeap_withHours (by decide)
  have hminutes :
      openMinutes springDays (.ofSecond 1541300400) (.ofSecond 1541331000) = .ok 30 := by
    unfold openMinutes
    rw [openTime_springDays]
    decide
  exact ⟨hcountable, hminutes, countsOpenTime hcountable (by decide) (by decide)⟩

end Overdue

end Circulation
