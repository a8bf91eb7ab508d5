import Circulation.Text.Digits
import Mathlib.Data.List.Basic

/-!
# Reading digits back

A number that is written in digits is read back from them, and the text that follows is left over.
A field of a fixed width may be followed by anything, while the digits of a number without a width
must not be followed by another one.
-/

namespace Circulation.Text

variable {n limit width : Nat} {c : Char} {ds rest : List Char}

/-! ## Digits -/

theorem digit_digitChar (h : n < 10) :
    (digitChar n).isDigit = true ∧ digitValue (digitChar n) = n := by
  revert n
  decide

theorem isBlank_of_isDigit (h : c.isDigit = true) : isBlank c = false := by
  have hc : 48 ≤ c.toNat ∧ c.toNat ≤ 57 := Char.isDigit_iff_toNat.mp h
  simp only [isBlank, Bool.or_eq_false_iff, Bool.and_eq_false_iff, decide_eq_false_iff_not,
    beq_eq_false_iff_ne]
  omega

theorem digitsValue_concat (ds : List Char) (c : Char) :
    digitsValue (ds ++ [c]) = 10 * digitsValue ds + digitValue c := by
  simp [digitsValue]

theorem isDigit_of_mem_fixed (h : c ∈ fixed width n) : c.isDigit = true := by
  induction width generalizing n with
  | zero => cases h
  | succ width ih =>
    rcases List.mem_append.mp h with h | h
    · exact ih h
    · rw [List.mem_singleton.mp h]
      exact (digit_digitChar (Nat.mod_lt n (by decide))).1

theorem digitsValue_fixed (h : n < Nat.pow 10 width) : digitsValue (fixed width n) = n := by
  induction width generalizing n with
  | zero =>
    obtain rfl : n = 0 := by simpa using h
    rfl
  | succ width ih =>
    have hdiv : n / 10 < Nat.pow 10 width := by
      have hlt : n < Nat.pow 10 width * 10 := h
      omega
    rw [fixed, digitsValue_concat, ih hdiv, (digit_digitChar (Nat.mod_lt n (by decide))).2]
    omega

theorem isDigit_of_mem_decimal (h : c ∈ decimal n) : c.isDigit = true := by
  fun_induction decimal n with
  | case1 n hlt =>
    rw [List.mem_singleton.mp h]
    exact (digit_digitChar hlt).1
  | case2 n hle ih =>
    rcases List.mem_append.mp h with h | h
    · exact ih h
    · rw [List.mem_singleton.mp h]
      exact (digit_digitChar (Nat.mod_lt n (by decide))).1

theorem decimal_ne_nil (n : Nat) : decimal n ≠ [] := by
  unfold decimal
  split <;> simp

theorem digitsValue_decimal (n : Nat) : digitsValue (decimal n) = n := by
  fun_induction decimal n with
  | case1 n hlt => simpa [digitsValue] using (digit_digitChar hlt).2
  | case2 n hle ih =>
    rw [digitsValue_concat, ih, (digit_digitChar (Nat.mod_lt n (by decide))).2]
    omega

/-- No zero leads the digits of a positive number. -/
theorem decimal_ne_zero_cons (h : 0 < n) (ds : List Char) : decimal n ≠ '0' :: ds := by
  fun_induction decimal n generalizing ds with
  | case1 n hlt =>
    intro heq
    have hvalue := (digit_digitChar hlt).2
    rw [(List.cons.inj heq).1] at hvalue
    exact Nat.ne_of_gt h hvalue.symm
  | case2 n hle ih =>
    intro heq
    rcases List.append_eq_cons_iff.mp heq with ⟨hnil, -⟩ | ⟨ds', htail, -⟩
    · exact decimal_ne_nil _ hnil
    · exact ih (by omega) ds' htail

/-! ## Numerals -/

/-- The digits are those of a number. -/
structure IsNumeral (ds : List Char) (n : Nat) : Prop where
  isDigit : ∀ c ∈ ds, c.isDigit = true
  ne_nil : ds ≠ []
  value : digitsValue ds = n

theorem isNumeral_fixed (hwidth : 0 < width) (h : n < Nat.pow 10 width) :
    IsNumeral (fixed width n) n where
  isDigit _ := isDigit_of_mem_fixed
  ne_nil := by
    rw [← List.length_pos_iff, length_fixed]
    exact hwidth
  value := digitsValue_fixed h

theorem isNumeral_decimal (n : Nat) : IsNumeral (decimal n) n where
  isDigit _ := isDigit_of_mem_decimal
  ne_nil := decimal_ne_nil n
  value := digitsValue_decimal n

theorem IsNumeral.exists_cons (h : IsNumeral ds n) :
    ∃ c cs, ds = c :: cs ∧ c.isDigit = true := by
  cases ds with
  | nil => exact absurd rfl h.ne_nil
  | cons c cs => exact ⟨c, cs, rfl, h.isDigit c List.mem_cons_self⟩

/-! ## Readers -/

/-- The text does not begin with a digit. -/
def NoDigit (rest : List Char) : Prop := ∀ c ∈ rest.head?, c.isDigit = false

theorem spanDigits_append (hds : ∀ c ∈ ds, c.isDigit = true) (hle : ds.length ≤ limit)
    (hrest : ds.length = limit ∨ NoDigit rest) : spanDigits limit (ds ++ rest) = (ds, rest) := by
  induction ds generalizing limit with
  | nil =>
    cases limit with
    | zero => rfl
    | succ limit =>
      cases rest with
      | nil => rfl
      | cons c rest =>
        have hc : c.isDigit = false := (hrest.resolve_left (by simp)) c rfl
        simp [spanDigits, hc]
  | cons d ds ih =>
    cases limit with
    | zero => simp at hle
    | succ limit =>
      have htail := ih (fun c hc => hds c (List.mem_cons_of_mem d hc)) (by simpa using hle)
        (by simpa using hrest)
      simp [spanDigits, hds d List.mem_cons_self, htail]

theorem IsNumeral.number?_append (h : IsNumeral ds n) (hle : ds.length ≤ limit)
    (hrest : ds.length = limit ∨ NoDigit rest) : number? limit (ds ++ rest) = some (n, rest) := by
  unfold number?
  rw [spanDigits_append h.isDigit hle hrest]
  obtain ⟨c, cs, rfl, -⟩ := h.exists_cons
  simp only [h.value]

theorem skipBlanks_cons (h : isBlank c = false) : skipBlanks (c :: rest) = c :: rest :=
  List.dropWhile_cons_of_neg (by simp [h])

theorem mark?_cons (h : isBlank c = false) : mark? c (c :: rest) = some rest := by
  rw [mark?, skipBlanks_cons h, char?, if_pos rfl]

/-- No blank stands before the digits of a number. -/
theorem IsNumeral.skipBlanks_append (h : IsNumeral ds n) (rest : List Char) :
    skipBlanks (ds ++ rest) = ds ++ rest := by
  obtain ⟨c, cs, rfl, hc⟩ := h.exists_cons
  exact skipBlanks_cons (isBlank_of_isDigit hc)

/-- A field of a fixed width is read back, whatever follows. -/
theorem field?_fixed (hwidth : 0 < width) (h : n < Nat.pow 10 width) (rest : List Char) :
    field? width (fixed width n ++ rest) = some (n, rest) := by
  have hnumeral := isNumeral_fixed hwidth h
  rw [field?, hnumeral.skipBlanks_append, hnumeral.number?_append
    (Nat.le_of_eq (length_fixed width n)) (.inl (length_fixed width n))]

end Circulation.Text
