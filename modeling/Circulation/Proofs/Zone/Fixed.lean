import Circulation.Proofs.Zone.Resolve
import Circulation.Zone.Named

/-!
# Zones of one offset

A zone of one constant offset keeps the order of time and shows every local time just once, so
that resolving subtracts the offset.
-/

namespace Circulation

namespace Zone

variable {z : Zone} {l : LocalTime} {t : Instant}

/-- The zone's clock is always `offset` seconds ahead of universal time, less than a day. -/
structure IsFixed (z : Zone) (offset : Int) : Prop where
  offsetAt_eq : ∀ second, z.offsetAt second = offset
  lower : -86400 < offset
  upper : offset < 86400

variable {offset : Int}

theorem constant_isFixed (name : String) (hlower : -86400 < offset) (hupper : offset < 86400) :
    (constant name offset).IsFixed offset :=
  ⟨fun _ => rfl, hlower, hupper⟩

theorem tokyo_isFixed : tokyo.IsFixed 32400 :=
  constant_isFixed "Asia/Tokyo" (by decide) (by decide)

theorem IsFixed.toLocal_eq_iff (h : z.IsFixed offset) :
    z.toLocal t = l ↔ t = instantAt l offset := by
  refine ⟨?_, ?_⟩
  · rintro rfl
    rw [← h.offsetAt_eq t.second, instantAt_toLocal]
  · rintro rfl
    rw [Moment.ext_iff']
    simp only [toLocal, instantAt, h.offsetAt_eq]
    exact ⟨by omega, trivial⟩

theorem IsFixed.toLocal_instantAt (h : z.IsFixed offset) (l : LocalTime) :
    z.toLocal (instantAt l offset) = l :=
  h.toLocal_eq_iff.mpr rfl

theorem IsFixed.toLocal_lt_iff (h : z.IsFixed offset) {a b : Instant} :
    z.toLocal a < z.toLocal b ↔ a < b := by
  simp only [Moment.lt_def, toLocal, h.offsetAt_eq]
  omega

theorem IsFixed.toLocal_le_iff (h : z.IsFixed offset) {a b : Instant} :
    z.toLocal a ≤ z.toLocal b ↔ a ≤ b := by
  simp only [Moment.le_def, toLocal, h.offsetAt_eq]
  omega

theorem IsFixed.localDate_mono (h : z.IsFixed offset) {a b : Instant} (hab : a ≤ b) :
    z.localDate a ≤ z.localDate b :=
  Moment.date_mono (h.toLocal_le_iff.mpr hab)

theorem IsFixed.earliest?_eq (h : z.IsFixed offset) :
    z.earliest? l = if (instantAt l offset).InRange then some (instantAt l offset) else none := by
  split
  · rename_i hrange
    rw [earliest?_eq_some_iff]
    refine ⟨⟨h.toLocal_instantAt l, hrange⟩, fun t' ht' => ?_⟩
    exact (h.toLocal_eq_iff.mp ht'.1).ge
  · rename_i hrange
    rw [earliest?_eq_none_iff, Set.eq_empty_iff_forall_notMem]
    rintro t ⟨ht, hin⟩
    exact hrange (h.toLocal_eq_iff.mp ht ▸ hin)

theorem IsFixed.resolve_eq (h : z.IsFixed offset) (hrange : (instantAt l offset).InRange) :
    z.resolve l = .ok (instantAt l offset) :=
  resolve_of_earliest? (h.earliest?_eq.trans (if_pos hrange))

/-- Away from the first and the last date every local time resolves. -/
theorem IsFixed.resolve_of_date (h : z.IsFixed offset) (hfirst : Date.first < l.date)
    (hlast : l.date < Date.last) : z.resolve l = .ok (instantAt l offset) := by
  refine h.resolve_eq ?_
  have hlower := h.lower
  have hupper := h.upper
  rw [Date.lt_def] at hfirst hlast
  rw [Moment.inRange_iff]
  simp only [Moment.date, instantAt] at *
  omega

/-- A local time whose instant is not too early resolves to that instant or not at all: an hour
later it is not too early either, and if it is too late, so it is an hour later. -/
theorem IsFixed.toLocal_of_resolve (h : z.IsFixed offset)
    (hearly : 86400 * Date.first.day ≤ l.second - offset) (ht : z.resolve l = .ok t) :
    z.toLocal t = l := by
  rcases resolve_eq_ok_iff.mp ht with hleast | ⟨hskipped, -, hleast⟩
  · exact hleast.1.1
  · obtain ⟨hshown, hrange⟩ := hleast.1
    obtain rfl := h.toLocal_eq_iff.mp hshown
    have hsame : (instantAt l offset).InRange := by
      have hsecond := second_hourLater l
      rw [Moment.inRange_iff] at hrange ⊢
      simp only [instantAt] at hrange ⊢
      omega
    have hmem : instantAt l offset ∈ z.shownAt l := ⟨h.toLocal_instantAt l, hsame⟩
    rw [hskipped] at hmem
    cases hmem

/-- A representable date has its end at 23:59:59, if it has one. -/
theorem IsFixed.toLocal_endOfDay (h : z.IsFixed offset) {d : Date} (hd : d.InRange)
    (ht : z.endOfDay d = .ok t) : z.toLocal t = d.at .lastSecond := by
  have hupper := h.upper
  have hfirst := Date.le_def.mp hd.1
  refine h.toLocal_of_resolve ?_ ht
  simp only [Date.at, TimeOfDay.lastSecond]
  omega

/-! ## Universal time -/

theorem IsFixed.second_toLocal (h : z.IsFixed 0) (t : Instant) :
    (z.toLocal t).second = t.second := by
  rw [toLocal, h.offsetAt_eq, Int.add_zero]

theorem IsFixed.date_toLocal (h : z.IsFixed 0) (t : Instant) : (z.toLocal t).date = t.date := by
  rw [Moment.date, h.second_toLocal, Moment.date]

theorem IsFixed.secondOfDay_toLocal (h : z.IsFixed 0) (t : Instant) :
    (z.toLocal t).secondOfDay = t.secondOfDay := by
  rw [Moment.secondOfDay, h.second_toLocal, Moment.secondOfDay]

theorem IsFixed.toLocal_of_resolve_inRange (h : z.IsFixed 0) (hl : l.InRange)
    (ht : z.resolve l = .ok t) : z.toLocal t = l := by
  refine h.toLocal_of_resolve ?_ ht
  have hfirst := (Moment.inRange_iff.mp hl).1
  omega

end Zone

end Circulation
