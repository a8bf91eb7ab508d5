import Circulation.Proofs.Json.RoundTrip

/-!
# The integers that are read

Whatever a text holds, the integers in the value that is read from it are integers of 64 bits. A
value with any other integer can be written, but is not read back.
-/

namespace Circulation.Json

variable {fuel levels : Nat} {cs rest : List Char} {j : Json} {ms done : List (String × Json)}
  {key : String}

abbrev Words : Json → Prop := Numbers True

abbrev WordsItems : List Json → Prop := NumbersItems True

abbrev WordsMembers : List (String × Json) → Prop := NumbersMembers True

theorem isWord_of_int? {n : Numeral} {i : Int} (h : n.int? = some i) : IsWord i := by
  have hsize : UInt64.size = 18446744073709551616 := rfl
  have hpow : Nat.pow 2 63 = 9223372036854775808 := rfl
  simp only [Numeral.int?, hsize, hpow] at h
  split_ifs at h
  all_goals
    obtain rfl := Option.some.inj h
    unfold IsWord
    omega

theorem words_of_numeral {n : Numeral} (h : n.value? = some j) : j.Words := by
  unfold Numeral.value? at h
  split at h
  · obtain rfl := Option.some.inj h
    exact isWord_of_int? ‹_›
  · obtain ⟨d, -, rfl⟩ := Option.map_eq_some_iff.mp h
    trivial

theorem words_insertMember (hj : j.Words) (h : WordsMembers ms) :
    WordsMembers (insertMember key j ms) := by
  fun_induction insertMember key j ms with
  | case1 => exact ⟨hj, trivial⟩
  | case2 => exact ⟨hj, h⟩
  | case3 => exact ⟨hj, h.2⟩
  | case4 k v rest hle hne ih => exact ⟨h.1, ih h.2⟩

mutual

theorem words_of_value? : ∀ {fuel levels : Nat} {cs rest : List Char} {j : Json},
    value? fuel levels cs = some (j, rest) → j.Words
  | 0, _, _, _, _, h => nomatch h
  | fuel + 1, levels, cs, rest, j, h => by
    rw [value?] at h
    split at h
    case h_1 | h_2 | h_3 | h_4 =>
      obtain ⟨_, -, heq⟩ := Option.map_eq_some_iff.mp h
      obtain ⟨rfl, -⟩ := Prod.mk.inj heq
      trivial
    case h_5 =>
      split_ifs at h
      split at h
      · obtain ⟨rfl, -⟩ := Prod.mk.inj (Option.some.inj h)
        trivial
      · obtain ⟨_, hitems, heq⟩ := Option.map_eq_some_iff.mp h
        obtain ⟨rfl, -⟩ := Prod.mk.inj heq
        exact words_of_items? hitems
    case h_6 =>
      split_ifs at h
      split at h
      · obtain ⟨rfl, -⟩ := Prod.mk.inj (Option.some.inj h)
        trivial
      · obtain ⟨_, hmembers, heq⟩ := Option.map_eq_some_iff.mp h
        obtain ⟨rfl, -⟩ := Prod.mk.inj heq
        exact words_of_members? (show WordsMembers [] from trivial) hmembers
    case h_7 =>
      simp only [Option.bind_eq_bind, Option.bind_eq_some_iff, Option.some.injEq] at h
      obtain ⟨n, -, j', hj, heq⟩ := h
      obtain ⟨rfl, -⟩ := Prod.mk.inj heq
      exact words_of_numeral hj

theorem words_of_items? : ∀ {fuel levels : Nat} {cs rest : List Char} {items : List Json},
    items? fuel levels cs = some (items, rest) → WordsItems items
  | 0, _, _, _, _, h => nomatch h
  | fuel + 1, levels, cs, rest, items, h => by
    simp only [items?, Option.bind_eq_bind, Option.bind_eq_some_iff] at h
    obtain ⟨first, hfirst, h⟩ := h
    split at h
    · obtain ⟨others, hothers, heq⟩ := Option.bind_eq_some_iff.mp h
      obtain ⟨rfl, -⟩ := Prod.mk.inj (Option.some.inj heq)
      exact ⟨words_of_value? hfirst, words_of_items? hothers⟩
    · obtain ⟨rfl, -⟩ := Prod.mk.inj (Option.some.inj h)
      exact ⟨words_of_value? hfirst, trivial⟩
    · cases h

theorem words_of_members? : ∀ {fuel levels : Nat} {done ms : List (String × Json)}
    {cs rest : List Char}, WordsMembers done → members? fuel levels done cs = some (ms, rest) →
    WordsMembers ms
  | 0, _, _, _, _, _, _, h => nomatch h
  | fuel + 1, levels, done, ms, cs, rest, hdone, h => by
    rw [members?] at h
    split at h
    case h_2 => cases h
    simp only [Option.bind_eq_bind, Option.bind_eq_some_iff] at h
    obtain ⟨key, -, h⟩ := h
    split at h
    case h_2 => cases h
    simp only [Option.bind_eq_some_iff] at h
    obtain ⟨value, hvalue, h⟩ := h
    have hadded : WordsMembers (insertMember key.1 value.1 done) :=
      words_insertMember (words_of_value? hvalue) hdone
    split at h
    · exact words_of_members? hadded h
    · obtain ⟨rfl, -⟩ := Prod.mk.inj (Option.some.inj h)
      exact hadded
    · cases h

end

/-- Whatever is read holds integers of 64 bits only. -/
theorem words_of_ofText? {s : String} (h : ofText? s = some j) : j.Words := by
  simp only [ofText?, Option.bind_eq_bind, Option.bind_eq_some_iff] at h
  obtain ⟨read, hread, h⟩ := h
  split at h
  · obtain rfl := Option.some.inj h
    exact words_of_value? hread
  · cases h

end Circulation.Json
