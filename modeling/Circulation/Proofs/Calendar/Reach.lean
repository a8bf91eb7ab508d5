import Circulation.Proofs.Calendar.Adjacent
import Circulation.Proofs.Strategy.Openings

/-!
# What the adjacent days reach

In a zone of one offset the open days nearest to a date hold every window of the register that
reaches an instant of the date, the openings that come next, and, where the windows of different
dates do not overlap, the closings that came last.
-/

namespace Circulation

open OpeningDay

theorem Zone.IsFixed.lt_of_localDate_lt {z : Zone} {offset : Int} (h : z.IsFixed offset)
    {a b : Instant} (hlt : z.localDate a < z.localDate b) : a < b :=
  h.toLocal_lt_iff.mp (Moment.lt_of_date_lt hlt)

/-- The days lie away from the first and the last date. -/
structure AdjacentDays.AwayFromEnds (a : AdjacentDays) : Prop where
  first_lt : Date.first.addDays 1 < a.previous.date
  lt_last : a.next.date.addDays 1 < Date.last

theorem AdjacentDays.awayFromEnds_of_dates {result : Result AdjacentDays} {previous next : Date}
    (h : result.map (fun a => (a.previous.date, a.next.date)) = .ok (previous, next))
    (hfirst : Date.first.addDays 1 < previous) (hlast : next.addDays 1 < Date.last)
    {a : AdjacentDays} (ha : result = .ok a) : a.AwayFromEnds := by
  rw [ha] at h
  obtain ⟨rfl, rfl⟩ := Prod.mk.inj (Except.ok.inj h)
  exact ⟨hfirst, hlast⟩

/-- The windows near an instant are some of all windows, and the other ones are over before the
instant or open on a later date than one of the near ones that starts after it. -/
structure LooksAhead (z : Zone) (m : Instant) (near all : Set (Span .utc)) : Prop where
  subset : ∀ w ∈ near, w ∈ all
  ahead : ∀ w ∈ all, w ∈ near ∨ (w.start < m ∧ w.stop < m) ∨
    ∃ v ∈ near, m < v.start ∧ z.localDate v.start < z.localDate w.start

namespace LooksAhead

variable {z : Zone} {offset : Int} {m : Instant} {near more all : Set (Span .utc)}

theorem mono (h : LooksAhead z m near all) (hsub : ∀ w ∈ near, w ∈ more)
    (hmore : ∀ w ∈ more, w ∈ all) : LooksAhead z m more all := by
  refine ⟨hmore, fun w hw => ?_⟩
  rcases h.ahead w hw with hnear | hover | ⟨v, hv, hmv, hdate⟩
  · exact .inl (hsub w hnear)
  · exact .inr (.inl hover)
  · exact .inr (.inr ⟨v, hsub v hv, hmv, hdate⟩)

/-- The windows that hold the instant are near. -/
theorem mem_near (h : LooksAhead z m near all) (hz : z.IsFixed offset) {w : Span .utc}
    (hw : w ∈ all) (hm : m ∈ w) : w ∈ near := by
  rcases h.ahead w hw with hnear | ⟨-, hstop⟩ | ⟨v, -, hmv, hdate⟩
  · exact hnear
  · exact absurd hm.2 hstop.asymm
  · exact absurd hm.1 (hmv.trans (hz.lt_of_localDate_lt hdate)).not_ge

theorem exists_mem_iff (h : LooksAhead z m near all) (hz : z.IsFixed offset) :
    (∃ w ∈ all, m ∈ w) ↔ ∃ w ∈ near, m ∈ w :=
  ⟨fun ⟨w, hw, hm⟩ => ⟨w, h.mem_near hz hw hm, hm⟩, fun ⟨w, hw, hm⟩ => ⟨w, h.subset w hw, hm⟩⟩

/-- Any window that starts after the instant starts no earlier than one of the near ones. -/
theorem exists_start_le (h : LooksAhead z m near all) (hz : z.IsFixed offset) {w : Span .utc}
    (hw : w ∈ all) (hm : m < w.start) : ∃ v ∈ near, m < v.start ∧ v.start ≤ w.start := by
  rcases h.ahead w hw with hnear | ⟨hstart, -⟩ | ⟨v, hv, hmv, hdate⟩
  · exact ⟨w, hnear, hm, le_rfl⟩
  · exact absurd hm hstart.asymm
  · exact ⟨v, hv, hmv, (hz.lt_of_localDate_lt hdate).le⟩

theorem isLeast_startsAfter (h : LooksAhead z m near all) (hz : z.IsFixed offset) {x : Instant}
    (hx : IsLeast (Span.startsAfter near m) x) : IsLeast (Span.startsAfter all m) x := by
  obtain ⟨⟨hmx, w, hw, hwx⟩, hleast⟩ := hx
  refine ⟨⟨hmx, w, h.subset w hw, hwx⟩, ?_⟩
  rintro y ⟨hmy, v, hv, rfl⟩
  obtain ⟨u, hu, hmu, hle⟩ := h.exists_start_le hz hv hmy
  exact (hleast ⟨hmu, u, hu, rfl⟩).trans hle

theorem startsAfter_nonempty (h : LooksAhead z m near all) (hz : z.IsFixed offset)
    (hne : (Span.startsAfter all m).Nonempty) : (Span.startsAfter near m).Nonempty := by
  obtain ⟨x, hx, w, hw, rfl⟩ := hne
  obtain ⟨v, hv, hmv, -⟩ := h.exists_start_le hz hw hx
  exact ⟨v.start, hmv, v, hv, rfl⟩

end LooksAhead

/-- The windows near a date are some of all windows. The other ones open on an earlier date than one
of the near ones before the date and are over by the end of that date, or open later than one of the
near ones after it. Those all open on the first date that has windows. -/
structure Surrounds (z : Zone) (date : Date) (near all : Set (Span .utc)) : Prop where
  subset : ∀ w ∈ near, w ∈ all
  others : ∀ w ∈ all, w ∈ near ∨
    (∃ v ∈ near, z.localDate v.start < date ∧ z.localDate w.start < z.localDate v.start ∧
      z.localDate w.stop ≤ z.localDate v.start) ∨
    ∃ v ∈ near, date < z.localDate v.start ∧ z.localDate v.start < z.localDate w.start
  next : ∀ v ∈ near, date < z.localDate v.start → ∀ w ∈ all, date < z.localDate w.start →
    z.localDate v.start ≤ z.localDate w.start

/-- What surrounds the date of an instant looks ahead of the instant. -/
theorem Surrounds.looksAhead {z : Zone} {offset : Int} {m : Instant} {near all : Set (Span .utc)}
    (h : Surrounds z (z.localDate m) near all) (hz : z.IsFixed offset) :
    LooksAhead z m near all := by
  refine ⟨h.subset, fun w hw => ?_⟩
  rcases h.others w hw with hnear | ⟨v, -, hv, hstart, hstop⟩ | ⟨v, hv, hmv, hlater⟩
  · exact .inl hnear
  · exact .inr (.inl ⟨hz.lt_of_localDate_lt (hstart.trans hv),
      hz.lt_of_localDate_lt (hstop.trans_lt hv)⟩)
  · exact .inr (.inr ⟨v, hv, hz.lt_of_localDate_lt hmv, hlater⟩)

namespace OpeningDay

variable {days : Set OpeningDay} {z : Zone} {offset : Int}

/-- The windows of different days have no instant in common. -/
def NoOverlap (days : Set OpeningDay) : Prop :=
  ∀ d ∈ days, ∀ e ∈ days, d.date ≠ e.date → ∀ w v, d.HasSpan w → e.HasSpan v → ∀ i ∈ w, i ∉ v

/-- Open days that are never on consecutive dates do not overlap. -/
theorem noOverlap_of_gaps (hz : z.IsFixed offset)
    (hinner : ∀ d ∈ days, d.IsInner z)
    (hgaps : ∀ d ∈ days, ∀ e ∈ days, d.isOpen = true → e.isOpen = true → d.date < e.date →
      d.date.addDays 1 < e.date) : NoOverlap days := by
  have hapart : ∀ d ∈ days, ∀ e ∈ days, d.date < e.date → ∀ w v, d.HasSpan w → e.HasSpan v →
      w.stop < v.start := by
    intro d hd e he hlt w v hw hv
    have hd' := hinner d hd
    have hstop := (date_of_mem_openWindows (hw.toLocal_mem hz hd'.zone_eq hd'.first_lt)).2.1
    have hstart := hv.localDate_start hz (hinner e he).zone_eq (hinner e he).first_lt
    have hgap := hgaps d hd e he hw.isOpen hv.isOpen hlt
    exact hz.lt_of_localDate_lt (hstart ▸ lt_of_le_of_lt hstop hgap)
  intro d hd e he hne w v hw hv i hiw hiv
  rcases lt_or_gt_of_ne hne with hlt | hgt
  · exact absurd (hiw.2.trans (hapart d hd e he hlt w v hw hv)) hiv.1.not_gt
  · exact absurd (hiv.2.trans (hapart e he d hd hgt v w hv hw)) hiw.1.not_gt

end OpeningDay

namespace Register

variable {r : Register} {z : Zone} {offset : Int} {date : Date} {m : Instant} {d e : OpeningDay}
  {w : Span .utc}

theorem lt_last_of_awayFromEnds (h : (r.adjacent date).AwayFromEnds) : date < Date.last := by
  have hnext := h.lt_last
  have hle := r.le_next date
  rw [Date.le_def] at hle
  simp only [Date.lt_def, Date.addDays] at hnext ⊢
  omega

theorem date_of_awayFromEnds (h : (r.adjacent date).AwayFromEnds) :
    Date.first.addDays 1 < date ∧ (date.addDays 1).addDays 1 < Date.last := by
  have hfirst := h.first_lt
  have hlast := h.lt_last
  have hprevious := r.previous_le date
  have hnext := r.lt_next (lt_last_of_awayFromEnds h)
  simp only [Date.lt_def, Date.le_def, Date.addDays] at *
  omega

theorem isInner_of_mem_adjacent (hzone : r.zone = z) (hdays : ∀ e ∈ r.days, e.zone = z)
    (haway : (r.adjacent date).AwayFromEnds) (hd : d ∈ (r.adjacent date).days) : d.IsInner z := by
  have hlast := lt_last_of_awayFromEnds haway
  have hfirst := haway.first_lt
  have hnext := haway.lt_last
  have hle : (r.adjacent date).previous.date ≤ d.date ∧
      d.date ≤ (r.adjacent date).next.date := by
    have hprevious := r.previous_le date
    have hlt := r.lt_next hlast
    simp only [AdjacentDays.days, List.mem_cons, List.not_mem_nil, or_false] at hd
    rcases hd with rfl | rfl | rfl
    · exact ⟨le_rfl, hprevious.trans hlt.le⟩
    · rw [show (r.adjacent date).requested.date = date from r.day_date date]
      exact ⟨hprevious, hlt.le⟩
    · exact ⟨hprevious.trans hlt.le, le_rfl⟩
  refine ⟨zone_of_mem_adjacent hlast hzone hdays hd, ?_, ?_⟩
  · simp only [Date.lt_def, Date.le_def, Date.addDays] at *
    omega
  · simp only [Date.lt_def, Date.le_def, Date.addDays] at *
    omega

theorem eq_openAfter_of_mem_adjacent (hd : d ∈ (r.adjacent date).days) (hlt : date < d.date) :
    d = r.openAfter date := by
  simp only [AdjacentDays.days, adjacent, List.mem_cons, List.not_mem_nil, or_false] at hd
  rcases hd with rfl | rfl | rfl
  · exact absurd hlt (r.previous_le date).not_gt
  · exact absurd hlt (r.day_date date).le.not_gt
  · rfl

/-- The windows of the adjacent days surround the date. -/
theorem surrounds_adjacent (hz : z.IsFixed offset) (hzone : r.zone = z)
    (hdays : ∀ e ∈ r.days, e.zone = z) (haway : (r.adjacent date).AwayFromEnds) :
    Surrounds z date (windowsOf {d | d ∈ (r.adjacent date).days}) (windowsOf {d | d ∈ r.days}) := by
  have hlast := lt_last_of_awayFromEnds haway
  have hinner : ∀ d ∈ (r.adjacent date).days, d.IsInner z := fun d hd =>
    isInner_of_mem_adjacent hzone hdays haway hd
  constructor
  case subset =>
    rintro w ⟨d, hd, hw⟩
    exact ⟨d, mem_of_mem_adjacent hlast hd (hw.isOpen), hw⟩
  case others =>
    rintro w ⟨e, he, hw⟩
    rcases lt_trichotomy e.date date with hlt | heq | hgt
    · obtain ⟨-, hopenBefore, hbefore, rfl | hearlier⟩ := openBefore_of_isOpen he hw.isOpen hlt
      · exact .inl ⟨_, r.previous_mem_adjacent _, hw⟩
      · have hprevious := hinner _ (r.previous_mem_adjacent _)
        obtain ⟨v, hv⟩ := hprevious.exists_hasSpan hz hopenBefore
        have hfirst : Date.first.addDays 1 < (r.openBefore date).date := haway.first_lt
        refine .inr (.inl ⟨v, ⟨_, r.previous_mem_adjacent _, hv⟩, ?_⟩)
        rw [hv.localDate_start hz hprevious.zone_eq hprevious.first_lt]
        exact ⟨hbefore, hw.localDate_le hz (hdays e he) hfirst hearlier⟩
    · exact .inl ⟨e, heq ▸ mem_adjacent_of_date he, hw⟩
    · obtain ⟨-, hopenAfter, hafter, rfl | hlater⟩ := openAfter_of_isOpen hlast he hw.isOpen hgt
      · exact .inl ⟨_, r.next_mem_adjacent _, hw⟩
      · have hnext := hinner _ (r.next_mem_adjacent _)
        obtain ⟨v, hv⟩ := hnext.exists_hasSpan hz hopenAfter
        refine .inr (.inr ⟨v, ⟨_, r.next_mem_adjacent _, hv⟩, ?_⟩)
        rw [hv.localDate_start hz hnext.zone_eq hnext.first_lt,
          hw.localDate_start hz (hdays e he) (hnext.first_lt.trans hlater)]
        exact ⟨hafter, hlater⟩
  case next =>
    rintro v ⟨d, hd, hv⟩ hdate w ⟨e, he, hw⟩ hgt
    have hearly : Date.first < e.date := by
      refine lt_of_not_ge fun hle => hgt.not_ge ?_
      exact (hw.localDate_early hz (hdays e he) hle).1.trans (date_of_awayFromEnds haway).1.le
    rw [hv.localDate_start hz (hinner d hd).zone_eq (hinner d hd).first_lt] at hdate ⊢
    rw [hw.localDate_start hz (hdays e he) hearly] at hgt ⊢
    rw [eq_openAfter_of_mem_adjacent hd hdate]
    obtain ⟨-, -, -, heq | hlater⟩ := openAfter_of_isOpen hlast he hw.isOpen hgt
    · rw [heq]
    · exact hlater.le

/-- The windows of the adjacent days of an instant's date look ahead of the instant. -/
theorem looksAhead_adjacent (hz : z.IsFixed offset) (hzone : r.zone = z)
    (hdays : ∀ e ∈ r.days, e.zone = z) (haway : (r.adjacent (z.localDate m)).AwayFromEnds) :
    LooksAhead z m (windowsOf {d | d ∈ (r.adjacent (z.localDate m)).days})
      (windowsOf {d | d ∈ r.days}) :=
  (surrounds_adjacent hz hzone hdays haway).looksAhead hz

/-- In closed time and without overlaps, a window of the adjacent days was the last to stop. -/
theorem exists_stop_ge (hz : z.IsFixed offset) (hzone : r.zone = z)
    (hdays : ∀ e ∈ r.days, e.zone = z) (haway : (r.adjacent (z.localDate m)).AwayFromEnds)
    (hoverlap : NoOverlap {d | d ∈ r.days}) (hm : ∀ w ∈ windowsOf {d | d ∈ r.days}, m ∉ w)
    (hw : w ∈ windowsOf {d | d ∈ r.days}) (hle : w.stop ≤ m) :
    ∃ v ∈ windowsOf {d | d ∈ (r.adjacent (z.localDate m)).days}, v.stop ≤ m ∧ w.stop ≤ v.stop := by
  obtain ⟨e, he, hw⟩ := hw
  have hfirst : Date.first.addDays 1 < (r.openBefore (z.localDate m)).date := haway.first_lt
  rcases lt_trichotomy e.date (z.localDate m) with hlt | heq | hgt
  · obtain ⟨hmem, hopenBefore, hbefore, rfl | hearlier⟩ := openBefore_of_isOpen he hw.isOpen hlt
    · exact ⟨w, ⟨_, r.previous_mem_adjacent _, hw⟩, hle, le_rfl⟩
    · -- The older window cannot reach into a window of the open day before.
      have hprevious := r.previous_mem_adjacent (z.localDate m)
      have hinner := isInner_of_mem_adjacent hzone hdays haway hprevious
      obtain ⟨v, hv⟩ := hinner.exists_hasSpan hz hopenBefore
      have hvstart := hv.localDate_start hz hinner.zone_eq hinner.first_lt
      have hvlt := hv.start_lt hz hinner.zone_eq hinner.first_lt
      have hwv : w.start < v.start :=
        hz.lt_of_localDate_lt (hvstart ▸ (hw.localDate_le hz (hdays e he) hfirst hearlier).1)
      have hvm : v.start < m := hz.lt_of_localDate_lt (hvstart ▸ hbefore)
      refine ⟨v, ⟨_, hprevious, hv⟩, le_of_not_gt fun hmv => ?_, ?_⟩
      · exact hm v ⟨_, hmem, hv⟩ ⟨hvm.le, hmv⟩
      · refine le_trans (le_of_not_gt fun hvw => ?_) hvlt.le
        exact hoverlap e he _ hmem hearlier.ne w v hw hv v.start ⟨hwv.le, hvw⟩ ⟨le_rfl, hvlt⟩
  · exact ⟨w, ⟨e, heq ▸ mem_adjacent_of_date he, hw⟩, hle, le_rfl⟩
  · have hlater : Date.first < e.date := by
      obtain ⟨hdate, -⟩ := date_of_awayFromEnds haway
      simp only [Date.lt_def, Date.addDays] at *
      omega
    have hstart := hw.localDate_start hz (hdays e he) hlater
    have hmw : m < w.start := hz.lt_of_localDate_lt (hstart ▸ hgt)
    exact absurd hle (hmw.trans (hw.start_lt hz (hdays e he) hlater)).not_ge

end Register

end Circulation
