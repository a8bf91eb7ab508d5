import Circulation.Calendar
import Circulation.Proofs.Opening.Window
import Mathlib.Data.List.Nodup

/-!
# Adjacent days

The open days before and after a date in a register are the nearest ones: no open day is recorded
between them and the date. Where there is none, a closed day stands for it, just before or after
the date.
-/

namespace Circulation

namespace Register

variable {r : Register} {date : Date} {d e : OpeningDay}

theorem eq_of_date_eq (hd : d ∈ r.days) (he : e ∈ r.days) (h : d.date = e.date) : d = e := by
  have hnodup : (r.days.map (·.date)).Nodup :=
    List.pairwise_map.mpr (r.sorted.imp fun hlt => ne_of_lt hlt)
  exact List.inj_on_of_nodup_map hnodup hd he h

/-- The day of a date is its record, or a closed day if it has none. -/
theorem day_cases (r : Register) (date : Date) :
    (r.day date ∈ r.days ∧ (r.day date).date = date) ∨
      (r.day date = .closed date r.zone ∧ ∀ e ∈ r.days, e.date ≠ date) := by
  unfold day day?
  cases hfind : r.days.find? fun d => d.date = date with
  | none => exact .inr ⟨rfl, by simpa using hfind⟩
  | some d =>
    have hdate := List.find?_some hfind
    exact .inl ⟨List.mem_of_find?_eq_some hfind, by simpa using hdate⟩

theorem day_date (r : Register) (date : Date) : (r.day date).date = date := by
  rcases r.day_cases date with ⟨-, h⟩ | ⟨h, -⟩
  · exact h
  · rw [h]
    rfl

theorem day_eq (he : e ∈ r.days) : r.day e.date = e := by
  rcases r.day_cases e.date with ⟨hmem, hdate⟩ | ⟨-, hnone⟩
  · exact eq_of_date_eq hmem he hdate
  · exact absurd rfl (hnone e he)

/-- The open day before a date is the latest record of one, or a closed day just before the date if
there is no such record. -/
theorem openBefore_cases (r : Register) (date : Date) :
    (r.openBefore date ∈ r.days ∧ (r.openBefore date).isOpen = true ∧
      (r.openBefore date).date < date ∧
      ∀ e ∈ r.days, e.isOpen = true → e.date < date → e.date ≤ (r.openBefore date).date) ∨
    (r.openBefore date = .closed (date.previous?.getD date) r.zone ∧
      ∀ e ∈ r.days, e.isOpen = true → ¬ e.date < date) := by
  have hsorted := r.sorted.filter fun d => d.date < date ∧ d.isOpen
  have hmem : ∀ e, e ∈ r.days.filter (fun d => d.date < date ∧ d.isOpen) ↔
      e ∈ r.days ∧ e.date < date ∧ e.isOpen = true := by simp
  unfold openBefore
  generalize r.days.filter (fun d => d.date < date ∧ d.isOpen) = opens at *
  rcases List.eq_nil_or_concat opens with rfl | ⟨earlier, last, rfl⟩
  · refine .inr ⟨rfl, fun e he hopen hlt => ?_⟩
    simpa using (hmem e).mpr ⟨he, hlt, hopen⟩
  · rw [List.concat_eq_append] at *
    simp only [List.getLast?_concat, Option.getD_some]
    obtain ⟨hlast, hlt, hopen⟩ := (hmem last).mp (by simp)
    refine .inl ⟨hlast, hopen, hlt, fun e he heopen helt => ?_⟩
    rcases List.mem_append.mp ((hmem e).mpr ⟨he, helt, heopen⟩) with hearlier | hlast'
    · exact ((List.pairwise_append.mp hsorted).2.2 e hearlier last (by simp)).le
    · rw [List.mem_singleton.mp hlast']

/-- The open day after a date is the earliest record of one, or a closed day just after the date if
there is no such record. -/
theorem openAfter_cases (r : Register) (hlast : date < Date.last) :
    (r.openAfter date ∈ r.days ∧ (r.openAfter date).isOpen = true ∧
      date < (r.openAfter date).date ∧
      ∀ e ∈ r.days, e.isOpen = true → date < e.date → (r.openAfter date).date ≤ e.date) ∨
    (r.openAfter date = .closed (date.addDays 1) r.zone ∧
      ∀ e ∈ r.days, e.isOpen = true → ¬ date < e.date) := by
  have hfollowing : ∀ e : OpeningDay, date.addDays 1 ≤ e.date ↔ date < e.date := by
    intro e
    simp only [Date.le_def, Date.lt_def, Date.addDays]
    omega
  unfold openAfter Date.next?
  rw [if_pos hlast]
  simp only [Option.getD_some, hfollowing]
  cases hfind : r.days.find? fun d => date < d.date ∧ d.isOpen with
  | none =>
    refine .inr ⟨rfl, fun e he hopen hlt => ?_⟩
    simpa [hopen, hlt] using List.find?_eq_none.mp hfind e he
  | some d =>
    obtain ⟨hd, before, after, hdays, hbefore⟩ := List.find?_eq_some_iff_append.mp hfind
    simp only [decide_eq_true_eq] at hd
    refine .inl ⟨List.mem_of_find?_eq_some hfind, hd.2, hd.1, fun e he hopen hlt => ?_⟩
    have hsorted := r.sorted
    rw [hdays] at he hsorted
    rcases List.mem_append.mp he with hearly | hlate
    · simpa [hopen, hlt] using hbefore e hearly
    · rcases List.mem_cons.mp hlate with rfl | hlate
      · exact le_rfl
      · exact (List.rel_of_pairwise_cons (List.pairwise_append.mp hsorted).2.1 hlate).le

/-- An open day before a date is the one found there or comes before it. -/
theorem openBefore_of_isOpen (he : e ∈ r.days) (hopen : e.isOpen = true) (hlt : e.date < date) :
    r.openBefore date ∈ r.days ∧ (r.openBefore date).isOpen = true ∧
      (r.openBefore date).date < date ∧
      (e = r.openBefore date ∨ e.date < (r.openBefore date).date) := by
  rcases r.openBefore_cases date with ⟨hmem, hisOpen, hbefore, hmax⟩ | ⟨-, hnone⟩
  · refine ⟨hmem, hisOpen, hbefore, ?_⟩
    exact (hmax e he hopen hlt).eq_or_lt.imp_left (eq_of_date_eq he hmem)
  · exact absurd hlt (hnone e he hopen)

/-- An open day after a date is the one found there or comes after it. -/
theorem openAfter_of_isOpen (hlast : date < Date.last) (he : e ∈ r.days) (hopen : e.isOpen = true)
    (hlt : date < e.date) :
    r.openAfter date ∈ r.days ∧ (r.openAfter date).isOpen = true ∧
      date < (r.openAfter date).date ∧
      (r.openAfter date = e ∨ (r.openAfter date).date < e.date) := by
  rcases r.openAfter_cases hlast with ⟨hmem, hisOpen, hafter, hmin⟩ | ⟨-, hnone⟩
  · refine ⟨hmem, hisOpen, hafter, ?_⟩
    exact (hmin e he hopen hlt).eq_or_lt.imp_left (eq_of_date_eq hmem he)
  · exact absurd hlt (hnone e he hopen)

/-! ## The three days -/

theorem previous_mem_adjacent (r : Register) (date : Date) :
    r.openBefore date ∈ (r.adjacent date).days :=
  List.mem_cons_self

theorem day_mem_adjacent (r : Register) (date : Date) : r.day date ∈ (r.adjacent date).days :=
  List.mem_cons_of_mem _ List.mem_cons_self

theorem next_mem_adjacent (r : Register) (date : Date) :
    r.openAfter date ∈ (r.adjacent date).days :=
  List.mem_cons_of_mem _ (List.mem_cons_of_mem _ List.mem_cons_self)

theorem mem_adjacent_of_date (he : e ∈ r.days) : e ∈ (r.adjacent e.date).days := by
  have hday := r.day_mem_adjacent e.date
  rwa [day_eq he] at hday

/-- Each of the adjacent days is recorded or stands for days without a record. -/
theorem mem_adjacent_cases (hlast : date < Date.last) (hd : d ∈ (r.adjacent date).days) :
    d ∈ r.days ∨ d = .closed d.date r.zone := by
  simp only [AdjacentDays.days, adjacent, List.mem_cons, List.not_mem_nil, or_false] at hd
  rcases hd with rfl | rfl | rfl
  · rcases r.openBefore_cases date with ⟨hmem, -⟩ | ⟨hclosed, -⟩
    · exact .inl hmem
    · exact .inr (by rw [hclosed]; rfl)
  · rcases r.day_cases date with ⟨hmem, -⟩ | ⟨hclosed, -⟩
    · exact .inl hmem
    · exact .inr (by rw [hclosed]; rfl)
  · rcases r.openAfter_cases hlast with ⟨hmem, -⟩ | ⟨hclosed, -⟩
    · exact .inl hmem
    · exact .inr (by rw [hclosed]; rfl)

theorem mem_of_mem_adjacent (hlast : date < Date.last) (hd : d ∈ (r.adjacent date).days)
    (hopen : d.isOpen = true) : d ∈ r.days := by
  rcases mem_adjacent_cases hlast hd with hmem | hclosed
  · exact hmem
  · rw [hclosed, OpeningDay.isOpen_closed] at hopen
    cases hopen

theorem zone_of_mem_adjacent {z : Zone} (hlast : date < Date.last) (hzone : r.zone = z)
    (hdays : ∀ e ∈ r.days, e.zone = z) (hd : d ∈ (r.adjacent date).days) : d.zone = z := by
  rcases mem_adjacent_cases hlast hd with hmem | hclosed
  · exact hdays d hmem
  · rw [hclosed]
    exact hzone

theorem previous_le (r : Register) (date : Date) : (r.adjacent date).previous.date ≤ date := by
  show (r.openBefore date).date ≤ date
  rcases r.openBefore_cases date with ⟨-, -, hlt, -⟩ | ⟨hclosed, -⟩
  · exact hlt.le
  · rw [hclosed]
    show date.previous?.getD date ≤ date
    unfold Date.previous?
    split
    · simp only [Option.getD_some, Date.le_def, Date.addDays]
      omega
    · exact le_rfl

theorem le_next (r : Register) (date : Date) : date ≤ (r.adjacent date).next.date := by
  have hfollowing : date ≤ date.next?.getD date := by
    unfold Date.next?
    split
    · simp only [Option.getD_some, Date.le_def, Date.addDays]
      omega
    · exact le_rfl
  refine hfollowing.trans ?_
  show _ ≤ (r.openAfter date).date
  simp only [openAfter]
  cases hfind : r.days.find? fun d => date.next?.getD date ≤ d.date ∧ d.isOpen with
  | none => exact le_rfl
  | some d =>
    have hd := List.find?_some hfind
    simp only [decide_eq_true_eq] at hd
    exact hd.1

theorem lt_next (r : Register) (hlast : date < Date.last) :
    date < (r.adjacent date).next.date := by
  show date < (r.openAfter date).date
  rcases r.openAfter_cases hlast with ⟨-, -, hlt, -⟩ | ⟨hclosed, -⟩
  · exact hlt
  · rw [hclosed]
    simp only [OpeningDay.closed, Date.lt_def, Date.addDays]
    omega

end Register

theorem Calendar.adjacentDays_eq {c : Calendar} {sp : ServicePoint} {r : Register}
    (hr : c.register sp = .ok r) (date : Date) :
    c.adjacentDays sp date = .ok (r.adjacent date) := by
  rw [adjacentDays, hr]
  rfl

end Circulation
