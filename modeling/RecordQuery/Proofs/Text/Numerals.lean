import Mathlib.Tactic.IntervalCases
import RecordQuery.Text.Numeral
set_option autoImplicit false

/-!
# Text: numerals as they are written

The digits of a number are a run of digits, which is read back as the number whatever follows that is no
digit.
-/

namespace RecordQuery.Text

/-! ## Runs of characters -/

/-- What holds of a first item holds of whatever comes first. -/
theorem forall_head?_cons {α : Type} {P : α → Prop} {a : α} (h : P a) (rest : List α) :
    ∀ b ∈ (a :: rest).head?, P b := by
  intro b hb
  cases hb
  exact h

theorem drop_length_takeWhile {α : Type} (p : α → Bool) (cs : List α) :
    cs.drop (cs.takeWhile p).length = cs.dropWhile p := by
  induction cs with
  | nil => rfl
  | cons c rest ih =>
    rw [List.takeWhile_cons, List.dropWhile_cons]
    split
    · exact ih
    · rfl

theorem takeWhile_append_of_all {p : Char → Bool} {cs g : List Char} (hcs : cs.all p = true)
    (hg : ∀ c ∈ g.head?, p c = false) : (cs ++ g).takeWhile p = cs := by
  induction cs with
  | nil =>
    cases g with
    | nil => rfl
    | cons c rest => simp [hg c rfl]
  | cons c rest ih =>
    rw [List.all_cons, Bool.and_eq_true] at hcs
    rw [List.cons_append, List.takeWhile_cons, if_pos hcs.1, ih hcs.2]

theorem dropWhile_append_of_all {p : Char → Bool} {cs g : List Char} (hcs : cs.all p = true)
    (hg : ∀ c ∈ g.head?, p c = false) : (cs ++ g).dropWhile p = g := by
  induction cs with
  | nil =>
    cases g with
    | nil => rfl
    | cons c rest => simp [hg c rfl]
  | cons c rest ih =>
    rw [List.all_cons, Bool.and_eq_true] at hcs
    rw [List.cons_append, List.dropWhile_cons, if_pos hcs.1, ih hcs.2]

/-! ## Numerals of integers -/

/-- The characters of an integer. -/
def numeral (n : Int) : List Char :=
  if 0 ≤ n then Nat.toDigits 10 n.toNat else '-' :: Nat.toDigits 10 (-n).toNat

theorem toList_toString (n : Int) : (toString n).toList = numeral n := by
  rw [Int.toString_eq_repr, Int.repr_eq_if, numeral]
  split
  · exact Nat.toList_repr
  · rw [String.toList_append, Nat.toList_repr]
    rfl

theorem all_isDigit_toDigits (n : Nat) : (Nat.toDigits 10 n).all Char.isDigit = true :=
  List.all_eq_true.mpr fun _ hc => Nat.isDigit_of_mem_toDigits (by decide) (by decide) hc

/-- A run of digits starts with a digit. -/
theorem eq_cons_of_all_isDigit {cs : List Char} (hne : cs ≠ []) (h : cs.all Char.isDigit = true) :
    ∃ c rest, cs = c :: rest ∧ c.isDigit = true := by
  obtain ⟨c, rest, rfl⟩ := List.exists_cons_of_ne_nil hne
  exact ⟨c, rest, rfl, (Bool.and_eq_true_iff.mp h).1⟩

theorem toDigits_eq_cons (n : Nat) : ∃ c rest, Nat.toDigits 10 n = c :: rest ∧ c.isDigit = true :=
  eq_cons_of_all_isDigit Nat.toDigits_ne_nil (all_isDigit_toDigits n)

theorem readNat_toDigits (n : Nat) : readNat (Nat.toDigits 10 n) = some n := by
  rw [readNat, if_pos ⟨Nat.toDigits_ne_nil, all_isDigit_toDigits n⟩, digitsValue,
    ← Nat.ofDigitChars_eq_foldl, Nat.ofDigitChars_ten_toDigits]

theorem takeSign_toDigits (n : Nat) : takeSign (Nat.toDigits 10 n) = (false, Nat.toDigits 10 n) := by
  obtain ⟨c, rest, hcons, hdigit⟩ := toDigits_eq_cons n
  rw [hcons]
  unfold takeSign
  split
  · rename_i heq
    cases heq
    cases hdigit
  · rename_i heq
    cases heq
    cases hdigit
  · rfl

/-- Further digits do not make a number smaller. -/
theorem le_ofDigitChars (cs : List Char) (n : Nat) : n ≤ Nat.ofDigitChars 10 cs n := by
  induction cs generalizing n with
  | nil => exact Nat.le_refl n
  | cons c rest ih =>
    rw [Nat.ofDigitChars_cons]
    exact Nat.le_trans (by omega) (ih _)

/-- Only zero has a leading zero. -/
theorem eq_zero_of_head?_toDigits {n : Nat} (h : (Nat.toDigits 10 n).head? = some '0') : n = 0 := by
  induction n using Nat.strongRecOn with
  | ind n ih =>
    rcases Nat.lt_or_ge n 10 with hlt | hge
    · interval_cases n <;> first | rfl | cases h
    · have hfirst : (Nat.toDigits 10 (n / 10)).head? = some '0' := by
        obtain ⟨c, rest, hcons, -⟩ := toDigits_eq_cons (n / 10)
        rw [Nat.toDigits_of_base_le (by decide) hge, hcons] at h
        rwa [hcons]
      have := ih (n / 10) (by omega) hfirst
      omega

/-- A numeral starts with a digit or a minus sign. -/
theorem numeral_eq_cons (n : Int) : ∃ c rest, numeral n = c :: rest ∧ (c = '-' ∨ c.isDigit = true) := by
  unfold numeral
  split
  · obtain ⟨c, rest, hcons, hdigit⟩ := toDigits_eq_cons n.toNat
    exact ⟨c, rest, hcons, .inr hdigit⟩
  · exact ⟨'-', _, rfl, .inl rfl⟩

theorem toInt64?_toInt (n : Int64) : toInt64? n.toInt = some n := by
  rw [toInt64?, if_pos ⟨n.minValue_le_toInt, n.toInt_le⟩, Int64.ofInt_toInt]

/-- The numeral of a 64-bit integer is read as that integer. -/
theorem readInt64_numeral (n : Int64) : readInt64 (numeral n.toInt) = some n := by
  have hread : readInt (numeral n.toInt) = some n.toInt := by
    unfold numeral
    split
    · rename_i hn
      simp only [readInt, takeSign_toDigits, readNat_toDigits]
      exact congrArg some (Int.toNat_of_nonneg hn)
    · rename_i hn
      have hneg : ((-n.toInt).toNat : Int) = -n.toInt := Int.toNat_of_nonneg (by omega)
      simp only [readInt, takeSign, readNat_toDigits]
      show some (-((-n.toInt).toNat : Int)) = some n.toInt
      rw [hneg, Int.neg_neg]
  rw [readInt64, hread, Option.bind_some, toInt64?_toInt]

/-! ## Hexadecimal digits -/

theorem hexValue?_digitChar {n : Nat} (h : n < 16) : hexValue? (Nat.digitChar n) = some n := by
  interval_cases n <;> rfl

end RecordQuery.Text
