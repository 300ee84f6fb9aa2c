import RecordQuery.Value.Compare
import RecordQuery.Sorting
import RecordQuery.Proofs.Numeric.Rounding
set_option autoImplicit false

/-!
# Value: the order for sorting

Two values that are not both numbers are ordered by their kinds and within a kind by their contents
(`sortCompare_of_not_numbers`), which is a transitive order.  Numbers are the exception.  Integers compare
exactly with each other but as rounded numbers with a float, and NaN ties with every number, so that a float
may hide which of two numbers is the greater one (`Hides`).  Apart from this the order is transitive
(`sortCompare_isLE_iff`).
-/

namespace RecordQuery

/-! ## Floats -/

namespace Binary64

theorem numericCompare_swap (x y : Binary64) : y.numericCompare x = (x.numericCompare y).map Ordering.swap := by
  rw [numericCompare, numericCompare, Bool.or_comm]
  split
  · rfl
  · show some (compare y.orderKey x.orderKey) = some (compare x.orderKey y.orderKey).swap
    exact congrArg some Std.OrientedCmp.eq_swap

theorem numericCompare_isSome_iff {x y : Binary64} :
    (x.numericCompare y).isSome = true ↔ x.isNaN = false ∧ y.isNaN = false := by
  rw [numericCompare]
  split
  · rename_i hnan
    rw [Bool.or_eq_true] at hnan
    rcases hnan with h | h <;> simp [h]
  · rename_i hnumber
    rw [Bool.or_eq_true, not_or, Bool.not_eq_true, Bool.not_eq_true] at hnumber
    exact iff_of_true rfl hnumber

/-- Floats are equal as numbers exactly when neither precedes the other. -/
theorem numericEq_iff {x y : Binary64} : x.numericEq y = true ↔ x.numericCompare y = some .eq := by
  rw [numericCompare]
  split
  · rename_i hnan
    rw [Bool.or_eq_true] at hnan
    rcases hnan with h | h <;> simp [numericEq, h]
  · rename_i hnumber
    rw [Bool.or_eq_true, not_or, Bool.not_eq_true, Bool.not_eq_true] at hnumber
    rw [Option.some.injEq, Int.compare_eq_eq]
    simp [numericEq, hnumber.1, hnumber.2]

theorem numericEq_comm (x y : Binary64) : x.numericEq y = y.numericEq x := by
  rw [Bool.eq_iff_iff, numericEq_iff, numericEq_iff, numericCompare_swap x y]
  cases x.numericCompare y with
  | none => rfl
  | some o => cases o <;> decide

end Binary64

namespace Value

/-! ## Kinds and contents -/

/-- The parts of a moment, the most significant one first. -/
def momentParts (t : DateTime) : List Int :=
  [t.date.year, t.date.month, t.date.day, t.time.hour, t.time.minute, t.time.second, t.time.nanosecond]

/-- What values of a kind are compared by; nothing for numbers, and for kinds whose values all tie. -/
def content : Value → List Int
  | .bool b => [b.toNat]
  | .string s => s.toList.map fun c => c.toNat
  | .bytes bs => bs.map fun b => b.toNat
  | .date d => momentParts (.midnight d)
  | .dateTime t => momentParts t
  | _ => []

/-- The order of kinds, and of contents within a kind. -/
def contentCompare : Value → Value → Ordering := compareLex (compareOn kindRank) (compareOn content)

instance : Std.TransCmp contentCompare :=
  inferInstanceAs (Std.TransCmp (compareLex (compareOn kindRank) (compareOn content)))

theorem compare_cast (m n : Nat) : compare (m : Int) (n : Int) = compare m n := by
  simp only [compare, compareOfLessAndEq, Int.ofNat_lt, Int.natCast_inj]

theorem compare_map {α : Type} (f : α → Nat) (xs ys : List α) :
    compare (xs.map fun x => (f x : Int)) (ys.map fun y => (f y : Int)) =
      List.compareLex (fun x y => compare (f x) (f y)) xs ys := by
  induction xs generalizing ys with
  | nil => cases ys <;> rfl
  | cons x xs ih =>
    cases ys with
    | nil => rfl
    | cons y ys =>
      rw [List.map_cons, List.map_cons, List.compare_cons_cons, List.compareLex_cons_cons, compare_cast, ih]

/-- Moments are ordered by their parts. -/
theorem compare_momentParts (s t : DateTime) : compare (momentParts s) (momentParts t) = s.compare t := by
  simp only [momentParts, List.compare_cons_cons, List.compare_nil_nil, compare_cast, DateTime.compare,
    Date.compare, TimeOfDay.compare, Ordering.then_assoc, Ordering.then_eq]

theorem compare_midnight (a b : Date) : compare (momentParts (.midnight a)) (momentParts (.midnight b)) = a.compare b := by
  have htime : TimeOfDay.compare .midnight .midnight = .eq := by decide
  rw [compare_momentParts, DateTime.compare, DateTime.midnight, DateTime.midnight, htime, Ordering.then_eq]

variable {a b c : Value}

theorem sortCompare_of_kindRank_ne (h : a.kindRank ≠ b.kindRank) :
    sortCompare a b = compare a.kindRank b.kindRank := by
  cases a <;> cases b <;> first | rfl | exact absurd rfl h

/-- Values of a kind that is not that of numbers are ordered by their contents. -/
theorem sortCompare_of_kindRank_eq (h : a.kindRank = b.kindRank) (hnumber : a.kindRank ≠ 2) :
    sortCompare a b = compare a.content b.content := by
  cases a with
  | int => exact absurd rfl hnumber
  | float => exact absurd rfl hnumber
  | bool p =>
    cases b with
    | bool q => cases p <;> cases q <;> rfl
    | _ => cases h
  | string s =>
    cases b with
    | string t => exact (compare_map Char.toNat s.toList t.toList).symm
    | _ => cases h
  | bytes s =>
    cases b with
    | bytes t => exact (compare_map UInt8.toNat s t).symm
    | _ => cases h
  | date d =>
    cases b with
    | date e => exact (compare_midnight d e).symm
    | dateTime t => exact (compare_momentParts _ t).symm
    | _ => cases h
  | dateTime s =>
    cases b with
    | date e => exact (compare_momentParts s _).symm
    | dateTime t => exact (compare_momentParts s t).symm
    | _ => cases h
  | null => cases b <;> first | rfl | cases h
  | array => cases b <;> first | rfl | cases h
  | object => cases b <;> first | rfl | cases h

/-- Two values that are not both numbers are ordered by kind and content. -/
theorem sortCompare_of_not_numbers (h : a.kindRank ≠ 2 ∨ b.kindRank ≠ 2) : sortCompare a b = contentCompare a b := by
  show sortCompare a b = (compare a.kindRank b.kindRank).then (compare a.content b.content)
  by_cases hkind : a.kindRank = b.kindRank
  · have hself : compare a.kindRank b.kindRank = .eq := Nat.compare_eq_eq.mpr hkind
    rw [sortCompare_of_kindRank_eq hkind (by omega), hself, Ordering.eq_then]
  · rw [sortCompare_of_kindRank_ne hkind]
    cases hcompare : compare a.kindRank b.kindRank with
    | eq => exact absurd (Nat.compare_eq_eq.mp hcompare) hkind
    | lt => rfl
    | gt => rfl

/-- Values in order have kinds in order. -/
theorem kindRank_le (h : (sortCompare a b).isLE = true) : a.kindRank ≤ b.kindRank := by
  by_cases hkind : a.kindRank = b.kindRank
  · exact Nat.le_of_eq hkind
  · rw [sortCompare_of_kindRank_ne hkind] at h
    exact Nat.isLE_compare.mp h

/-! ## Numbers -/

/-- The number that an integer or a float is compared as beside a float. -/
def asFloat : Value → Binary64
  | .int n => .ofInt n.toInt
  | .float x => x
  | _ => .zero

/-- The order of two numbers; NaN ties with all of them. -/
def floatCompare (x y : Binary64) : Ordering := (x.numericCompare y).getD .eq

theorem floatCompare_swap (x y : Binary64) : floatCompare y x = (floatCompare x y).swap := by
  rw [floatCompare, floatCompare, Binary64.numericCompare_swap x y]
  cases x.numericCompare y <;> rfl

theorem floatCompare_nan {x y : Binary64} (h : x.isNaN = true ∨ y.isNaN = true) : floatCompare x y = .eq := by
  rw [floatCompare, Binary64.numericCompare, if_pos (by simpa using h)]
  rfl

theorem floatCompare_isLE {x y : Binary64} (hx : x.isNaN = false) (hy : y.isNaN = false) :
    (floatCompare x y).isLE = true ↔ x.orderKey ≤ y.orderKey := by
  rw [floatCompare, Binary64.numericCompare, if_neg (by simp [hx, hy])]
  exact Std.isLE_compare

theorem numericEq_of_orderKey {x y : Binary64} (hx : x.isNaN = false) (hy : y.isNaN = false)
    (h : x.orderKey = y.orderKey) : x.numericEq y = true := by
  simp [Binary64.numericEq, hx, hy, h]

/-- Beside a float, numbers are compared as floats. -/
theorem sortCompare_floats (ha : a.kindRank = 2) (hb : b.kindRank = 2) (hfloat : a.asInt? = none ∨ b.asInt? = none) :
    sortCompare a b = floatCompare a.asFloat b.asFloat := by
  cases a with
  | int m =>
    cases b with
    | int n => rcases hfloat with h | h <;> cases h
    | float => rfl
    | _ => cases hb
  | float =>
    cases b with
    | int => rfl
    | float => rfl
    | _ => cases hb
  | _ => cases ha

theorem asInt?_of_isNaN (h : a.asFloat.isNaN = true) : a.asInt? = none := by
  cases a with
  | int n => exact absurd h (by simp [asFloat, Binary64.isNaN_ofInt])
  | _ => rfl

theorem eq_ints (h : ¬ (a.asInt? = none ∨ b.asInt? = none)) : ∃ m n, a = .int m ∧ b = .int n := by
  cases a with
  | int m =>
    cases b with
    | int n => exact ⟨m, n, rfl, rfl⟩
    | _ => exact absurd (.inr rfl) h
  | _ => exact absurd (.inl rfl) h

theorem sortCompare_nan (ha : a.kindRank = 2) (hb : b.kindRank = 2)
    (hnan : a.asFloat.isNaN = true ∨ b.asFloat.isNaN = true) : sortCompare a b = .eq := by
  rw [sortCompare_floats ha hb (hnan.imp asInt?_of_isNaN asInt?_of_isNaN)]
  exact floatCompare_nan hnan

theorem sortCompare_ints (m n : Int64) : (sortCompare (.int m) (.int n)).isLE = true ↔ m.toInt ≤ n.toInt :=
  Std.isLE_compare

/-- Numbers in order stay in order when they are rounded. -/
theorem orderKey_le (ha : a.kindRank = 2) (hb : b.kindRank = 2) (hanumber : a.asFloat.isNaN = false)
    (hbnumber : b.asFloat.isNaN = false) (h : (sortCompare a b).isLE = true) :
    a.asFloat.orderKey ≤ b.asFloat.orderKey := by
  by_cases hfloat : a.asInt? = none ∨ b.asInt? = none
  · rw [sortCompare_floats ha hb hfloat] at h
    exact (floatCompare_isLE hanumber hbnumber).mp h
  · obtain ⟨m, n, rfl, rfl⟩ := eq_ints hfloat
    exact Binary64.orderKey_ofInt_mono ((sortCompare_ints m n).mp h)

/-! ## The order -/

theorem sortCompare_swap (a b : Value) : sortCompare b a = (sortCompare a b).swap := by
  by_cases hkind : a.kindRank = 2 ∧ b.kindRank = 2
  · by_cases hfloat : a.asInt? = none ∨ b.asInt? = none
    · rw [sortCompare_floats hkind.2 hkind.1 hfloat.symm, sortCompare_floats hkind.1 hkind.2 hfloat]
      exact floatCompare_swap _ _
    · obtain ⟨m, n, rfl, rfl⟩ := eq_ints hfloat
      show compare n.toInt m.toInt = (compare m.toInt n.toInt).swap
      exact Std.OrientedCmp.eq_swap
  · have hnot : a.kindRank ≠ 2 ∨ b.kindRank ≠ 2 := Decidable.not_and_iff_or_not.mp hkind
    rw [sortCompare_of_not_numbers hnot.symm, sortCompare_of_not_numbers hnot]
    exact Std.OrientedCmp.eq_swap

/-- The value in the middle ties with both others, or stands between them, and hides that the first one is
greater than the last one: it is NaN, or a float that two integers are rounded to. -/
inductive Hides : Value → Value → Value → Prop
  | nan {a c : Value} {x : Binary64} (hx : x.isNaN = true) (ha : a.kindRank = 2) (hc : c.kindRank = 2)
      (hac : sortCompare a c = .gt) : Hides a (.float x) c
  | rounded {m n : Int64} {x : Binary64} (hm : (Binary64.ofInt m.toInt).numericEq x = true)
      (hn : (Binary64.ofInt n.toInt).numericEq x = true) (hgt : n < m) : Hides (.int m) (.float x) (.int n)

theorem sortCompare_ints_gt {m n : Int64} : sortCompare (.int m) (.int n) = .gt ↔ n < m := by
  rw [← Ordering.isLE_eq_false, Bool.eq_false_iff, ne_eq, sortCompare_ints, Int64.lt_iff_toInt_lt]
  omega

/-- What is hidden is a greater value. -/
theorem Hides.gt (h : Hides a b c) : sortCompare a c = .gt := by
  cases h with
  | nan _ _ _ hac => exact hac
  | rounded _ _ hgt => exact sortCompare_ints_gt.mpr hgt

/-- Only numbers are out of order although a value in the middle is in order with both. -/
theorem kinds_of_gt (hab : (sortCompare a b).isLE = true) (hbc : (sortCompare b c).isLE = true)
    (hac : sortCompare a c = .gt) : a.kindRank = 2 ∧ b.kindRank = 2 ∧ c.kindRank = 2 := by
  have hkindab := kindRank_le hab
  have hkindbc := kindRank_le hbc
  have hkindca : c.kindRank ≤ a.kindRank := kindRank_le (by rw [sortCompare_swap, hac]; rfl)
  by_cases hnumber : b.kindRank = 2
  · omega
  · rw [sortCompare_of_not_numbers (.inr hnumber)] at hab
    rw [sortCompare_of_not_numbers (.inl hnumber)] at hbc
    rw [sortCompare_of_not_numbers (by omega)] at hac
    have htrans : (contentCompare a c).isLE = true := Std.TransCmp.isLE_trans hab hbc
    rw [hac] at htrans
    cases htrans

/-- A number is out of order with another one, although a third one is in order with both, only where the
third one hides it. -/
theorem hides_of_gt (hab : (sortCompare a b).isLE = true) (hbc : (sortCompare b c).isLE = true)
    (hac : sortCompare a c = .gt) : Hides a b c := by
  obtain ⟨ha, hb, hc⟩ := kinds_of_gt hab hbc hac
  have hnan : ¬ (a.asFloat.isNaN = true ∨ c.asFloat.isNaN = true) := by
    intro h
    rw [sortCompare_nan ha hc h] at hac
    cases hac
  obtain ⟨hanumber, hcnumber⟩ := not_or.mp hnan
  rw [Bool.not_eq_true] at hanumber hcnumber
  cases hbnumber : b.asFloat.isNaN with
  | true =>
    cases b with
    | int => exact absurd (asInt?_of_isNaN hbnumber) nofun
    | float x => exact .nan hbnumber ha hc hac
    | _ => cases hb
  | false =>
    have hkeyab := orderKey_le ha hb hanumber hbnumber hab
    have hkeybc := orderKey_le hb hc hbnumber hcnumber hbc
    by_cases hfloat : a.asInt? = none ∨ c.asInt? = none
    · have hle := (floatCompare_isLE hanumber hcnumber).mpr (Int.le_trans hkeyab hkeybc)
      rw [← sortCompare_floats ha hc hfloat, hac] at hle
      cases hle
    · obtain ⟨m, n, rfl, rfl⟩ := eq_ints hfloat
      have hlt := sortCompare_ints_gt.mp hac
      -- the greater one is rounded to no smaller number, so both are rounded to the one in the middle
      have hkeyca : (asFloat (.int n)).orderKey ≤ (asFloat (.int m)).orderKey :=
        Binary64.orderKey_ofInt_mono (Int.le_of_lt (Int64.lt_iff_toInt_lt.mp hlt))
      cases b with
      | int k =>
        rw [sortCompare_ints] at hab hbc
        rw [Int64.lt_iff_toInt_lt] at hlt
        omega
      | float x =>
        have hmx : (asFloat (.int m)).orderKey = x.orderKey :=
          Int.le_antisymm hkeyab (Int.le_trans hkeybc hkeyca)
        have hnx : (asFloat (.int n)).orderKey = x.orderKey :=
          Int.le_antisymm (Int.le_trans hkeyca hkeyab) hkeybc
        exact .rounded (numericEq_of_orderKey hanumber hbnumber hmx) (numericEq_of_orderKey hcnumber hbnumber hnx)
          hlt
      | _ => cases hb

/-- Between values in order, the order is transitive exactly where nothing is hidden. -/
theorem sortCompare_isLE_iff (hab : (sortCompare a b).isLE = true) (hbc : (sortCompare b c).isLE = true) :
    (sortCompare a c).isLE = true ↔ ¬ Hides a b c := by
  rw [Ordering.isLE_iff_ne_gt]
  exact not_congr ⟨hides_of_gt hab hbc, Hides.gt⟩

/-- The order for sorting reads the same from both sides.  Of three values in order the first and the last one
are in order exactly where the one in the middle hides nothing, and ties behave alike. -/
theorem sortCompare_order (a b c : Value) :
    sortCompare b a = (sortCompare a b).swap ∧
      ((sortCompare a b).isLE = true → (sortCompare b c).isLE = true →
        ((sortCompare a c).isLE = true ↔ ¬ Hides a b c)) ∧
      (sortCompare a b = .eq → sortCompare b c = .eq →
        (sortCompare a c = .eq ↔ ¬ Hides a b c ∧ ¬ Hides c b a)) := by
  refine ⟨sortCompare_swap a b, sortCompare_isLE_iff, ?_⟩
  intro hab hbc
  have hba : sortCompare b a = .eq := by rw [sortCompare_swap, hab]; rfl
  have hcb : sortCompare c b = .eq := by rw [sortCompare_swap, hbc]; rfl
  rw [← sortCompare_isLE_iff (Ordering.isLE_of_eq_eq hab) (Ordering.isLE_of_eq_eq hbc),
    ← sortCompare_isLE_iff (Ordering.isLE_of_eq_eq hcb) (Ordering.isLE_of_eq_eq hba), sortCompare_swap a c,
    Ordering.isLE_swap]
  exact Ordering.eq_eq_iff_isLE_and_isGE

/-- A float between one and two hides nothing, nor does the integer that ties with both zeros. -/
theorem sortCompare_order_between :
    let half : Value := .float ⟨0x3FF8000000000000⟩
    let negativeZero : Value := .float ⟨0x8000000000000000⟩
    let zero : Value := .float ⟨0⟩
    (sortCompare (.int 1) half).isLE = true ∧ (sortCompare half (.int 2)).isLE = true ∧
      ((sortCompare (.int 1) (.int 2)).isLE = true ↔ ¬ Hides (.int 1) half (.int 2)) ∧
      sortCompare negativeZero (.int 0) = .eq ∧ sortCompare (.int 0) zero = .eq ∧
      (sortCompare negativeZero zero = .eq ↔
        ¬ Hides negativeZero (.int 0) zero ∧ ¬ Hides zero (.int 0) negativeZero) := by
  intro half negativeZero zero
  have hlow : (sortCompare (.int 1) half).isLE = true := by decide +kernel
  have hhigh : (sortCompare half (.int 2)).isLE = true := by decide +kernel
  have hnegative : sortCompare negativeZero (.int 0) = .eq := by decide +kernel
  have hzero : sortCompare (.int 0) zero = .eq := by decide +kernel
  exact ⟨hlow, hhigh, (sortCompare_order _ _ _).2.1 hlow hhigh, hnegative, hzero,
    (sortCompare_order _ _ _).2.2 hnegative hzero⟩

/-- The float `2 ^ 53` ties with two integers, of which the first one is greater than the last one; the sort
leaves the three as they are. -/
theorem float_hides_greater_integer :
    let first : Value := .int 9007199254740993
    let middle : Value := .float (.ofInt 9007199254740992)
    let last : Value := .int 9007199254740992
    sortCompare first middle = .eq ∧ sortCompare middle last = .eq ∧ sortCompare first last = .gt ∧
      Sorting.sortBy sortCompare [first, middle, last] = [first, middle, last] := by
  refine ⟨by decide +kernel, by decide +kernel, by decide +kernel, ?_⟩
  rfl

end Value

end RecordQuery
