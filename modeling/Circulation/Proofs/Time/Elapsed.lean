import Circulation.Proofs.Time.Order
import Mathlib.Logic.Function.Basic

/-!
# Elapsed time

Moments that are no leap seconds are counted by the nanoseconds since the start of 1970-01-01, and
the time that elapses between two of them is the difference of these numbers.
-/

namespace Circulation

namespace Moment

variable {f : Frame} {a b : Moment f}

/-- Nanoseconds since the start of 1970-01-01. -/
def nanos (m : Moment f) : Int := m.second * nanosPerSecond + m.nano

theorem nanos_le_iff (ha : ¬ a.IsLeapSecond) (hb : ¬ b.IsLeapSecond) :
    a.nanos ≤ b.nanos ↔ a ≤ b := by
  simp only [IsLeapSecond, nanos, le_def, nanosPerSecond] at *
  omega

theorem nanos_lt_iff (ha : ¬ a.IsLeapSecond) (hb : ¬ b.IsLeapSecond) :
    a.nanos < b.nanos ↔ a < b := by
  rw [← Moment.not_le, ← nanos_le_iff hb ha, Int.not_le]

theorem nanosSince_eq (ha : ¬ a.IsLeapSecond) (hb : ¬ b.IsLeapSecond) :
    a.nanosSince b = a.nanos - b.nanos := by
  have hleap : leapBetween a b = 0 := by simp [leapBetween, ha, hb]
  rw [nanosSince, hleap, nanos, nanos, nanosPerSecond]
  omega

theorem minutesSince_eq (ha : ¬ a.IsLeapSecond) (hb : ¬ b.IsLeapSecond) (h : b ≤ a) :
    a.minutesSince b = (a.nanos - b.nanos) / (60 * nanosPerSecond) := by
  have hnonneg : 0 ≤ a.nanos - b.nanos := Int.sub_nonneg.mpr ((nanos_le_iff hb ha).mpr h)
  rw [minutesSince, wholeMinutes, nanosSince_eq ha hb, Int.tdiv_eq_ediv_of_nonneg hnonneg]
  rfl

/-- The moment that many nanoseconds since the start of 1970-01-01. -/
def ofNanos (n : Int) : Moment f :=
  ⟨n / 1000000000, (n % 1000000000).toNat, by omega⟩

theorem nanos_ofNanos (n : Int) : (ofNanos n : Moment f).nanos = n := by
  simp only [nanos, ofNanos, nanosPerSecond]
  omega

theorem ofNanos_not_leap (n : Int) : ¬ (ofNanos n : Moment f).IsLeapSecond := by
  simp only [IsLeapSecond, ofNanos, nanosPerSecond]
  omega

theorem ofNanos_nanos (ha : ¬ a.IsLeapSecond) : ofNanos a.nanos = a := by
  simp only [IsLeapSecond, nanosPerSecond] at ha
  rw [ext_iff']
  simp only [nanos, ofNanos, nanosPerSecond]
  omega

theorem ofNanos_injective : Function.Injective (ofNanos : Int → Moment f) :=
  Function.LeftInverse.injective nanos_ofNanos

end Moment

end Circulation
