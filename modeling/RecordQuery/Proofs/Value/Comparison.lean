import RecordQuery.Proofs.Value.Order
set_option autoImplicit false

/-!
# Value: equality and order agree

Equality and order in filters are two functions by cases on pairs of kinds.  They read the same from both sides
(`sqlEq_comm`, `sqlCompare_swap`), and where neither value holds other values they agree on what is equal
(`sqlEq_iff_sqlCompare`).  Values of the same kind, numbers apart, are compared by their contents; numbers are
compared as integers or as floats, and values of different kinds are neither equal nor in order.  So it is known which
values are in order at all (`sqlCompare_isSome_iff`).
-/

namespace RecordQuery.Value

/-! ## Sameness reads the same from both sides -/

mutual

theorem identical_comm (a b : Value) : identical a b = identical b a := by
  match a with
  | .null => cases b <;> rfl
  | .bool p => cases b <;> first | rfl | exact Bool.beq_comm
  | .int m => cases b <;> first | rfl | exact Bool.beq_comm
  | .float x => cases b <;> first | rfl | exact Binary64.numericEq_comm _ _
  | .string s => cases b <;> first | rfl | exact Bool.beq_comm
  | .bytes bs => cases b <;> first | rfl | exact Bool.beq_comm
  | .date d => cases b <;> first | rfl | exact Bool.beq_comm
  | .dateTime t => cases b <;> first | rfl | exact Bool.beq_comm
  | .array items => cases b <;> first | rfl | exact identicalItems_comm items _
  | .object entries => cases b <;> first | rfl | exact identicalEntries_comm entries _
termination_by structural a

theorem identicalItems_comm (as bs : List Value) : identicalItems as bs = identicalItems bs as := by
  match as with
  | [] => cases bs <;> rfl
  | a :: rest =>
    cases bs with
    | nil => rfl
    | cons b more =>
      show (identical a b && identicalItems rest more) = (identical b a && identicalItems more rest)
      rw [identical_comm a b, identicalItems_comm rest more]
termination_by structural as

theorem identicalEntries_comm (as bs : List (String × Value)) : identicalEntries as bs = identicalEntries bs as := by
  match as with
  | [] => cases bs <;> rfl
  | (k, a) :: rest =>
    cases bs with
    | nil => rfl
    | cons entry more =>
      obtain ⟨l, b⟩ := entry
      show (k == l && identical a b && identicalEntries rest more) =
        (l == k && identical b a && identicalEntries more rest)
      rw [Bool.beq_comm, identical_comm a b, identicalEntries_comm rest more]
termination_by structural as

end

mutual

/-- Equality in a filter reads the same from both sides. -/
theorem sqlEq_comm (a b : Value) : sqlEq a b = sqlEq b a := by
  match a with
  | .array items => cases b <;> first | rfl | exact sqlEqItems_comm items _
  | .null => cases b <;> rfl
  | .bool p => cases b <;> first | rfl | exact identical_comm _ _
  | .int m => cases b <;> first | rfl | exact identical_comm _ _
  | .float x => cases b <;> first | rfl | exact identical_comm _ _
  | .string s => cases b <;> first | rfl | exact identical_comm _ _
  | .bytes bs => cases b <;> first | rfl | exact identical_comm _ _
  | .date d => cases b <;> first | rfl | exact identical_comm _ _
  | .dateTime t => cases b <;> first | rfl | exact identical_comm _ _
  | .object entries => cases b <;> first | rfl | exact identical_comm _ _
termination_by structural a

theorem sqlEqItems_comm (as bs : List Value) : sqlEqItems as bs = sqlEqItems bs as := by
  match as with
  | [] => cases bs <;> rfl
  | a :: rest =>
    cases bs with
    | nil => rfl
    | cons b more =>
      show (sqlEq a b && sqlEqItems rest more) = (sqlEq b a && sqlEqItems more rest)
      rw [sqlEq_comm a b, sqlEqItems_comm rest more]
termination_by structural as

end

/-! ## Order reads the opposite from both sides -/

variable {a b : Value}

/-- Where values are in order in a filter, they are in that order for sorting. -/
theorem sortCompare_of_sqlCompare {o : Ordering} (h : sqlCompare a b = some o) : sortCompare a b = o := by
  unfold sortCompare
  split
  · cases h
  · rw [sqlCompare_null_left] at h
    cases h
  · rw [sqlCompare_null_right] at h
    cases h
  · rw [h]
    rfl

/-- Which values are in order does not depend on their sides. -/
theorem sqlCompare_isSome_comm (a b : Value) : (sqlCompare a b).isSome = (sqlCompare b a).isSome := by
  cases a <;> cases b <;> simp only [sqlCompare, Option.isSome_some, Option.isSome_none]
  all_goals rw [Binary64.numericCompare_swap, Option.isSome_map]

theorem sqlCompare_swap (a b : Value) : sqlCompare b a = (sqlCompare a b).map Ordering.swap := by
  have hsome := sqlCompare_isSome_comm a b
  cases hab : sqlCompare a b with
  | none =>
    rw [hab, Option.isSome_none] at hsome
    exact Option.not_isSome_iff_eq_none.mp (by simp [← hsome])
  | some o =>
    rw [hab, Option.isSome_some] at hsome
    obtain ⟨p, hba⟩ := Option.isSome_iff_exists.mp hsome.symm
    rw [hba, Option.map_some, ← sortCompare_of_sqlCompare hab, ← sortCompare_of_sqlCompare hba, sortCompare_swap]

/-! ## What is in order -/

/-- A value that holds other values. -/
def isNested : Value → Bool
  | .array _ => true
  | .object _ => true
  | _ => false

/-- Values of different kinds are not in order. -/
theorem sqlCompare_of_kindRank_ne (h : a.kindRank ≠ b.kindRank) : sqlCompare a b = none := by
  cases a <;> cases b <;> first | rfl | exact absurd rfl h

/-- Values of the same kind, numbers and those that hold other values apart, are in the order of their contents. -/
theorem sqlCompare_of_kindRank_eq (h : a.kindRank = b.kindRank) (hnumber : a.kindRank ≠ 2) (hnull : a ≠ .null)
    (hnested : a.isNested = false) : sqlCompare a b = some (compare a.content b.content) := by
  obtain ⟨o, ho⟩ : ∃ o, sqlCompare a b = some o := by
    cases a <;> cases b <;> first
      | exact ⟨_, rfl⟩
      | exact absurd rfl hnumber
      | exact absurd rfl hnull
      | exact Bool.noConfusion hnested
      | exact absurd h (by simp [kindRank])
  rw [ho, ← sortCompare_of_sqlCompare ho, sortCompare_of_kindRank_eq h hnumber]

/-- Numbers are in order unless one of them is NaN. -/
theorem sqlCompare_isSome_numbers (ha : a.kindRank = 2) (hb : b.kindRank = 2) :
    (sqlCompare a b).isSome = true ↔ a.asFloat.isNaN = false ∧ b.asFloat.isNaN = false := by
  cases a with
  | int m =>
    cases b with
    | int n => exact iff_of_true rfl ⟨Binary64.isNaN_ofInt _, Binary64.isNaN_ofInt _⟩
    | float y => exact Binary64.numericCompare_isSome_iff
    | _ => cases hb
  | float x =>
    cases b with
    | int n => exact Binary64.numericCompare_isSome_iff
    | float y => exact Binary64.numericCompare_isSome_iff
    | _ => cases hb
  | _ => cases ha

/-- Values that have an order in a filter. -/
structure AreComparable (a b : Value) : Prop where
  sameKind : a.kindRank = b.kindRank
  present : a ≠ .null
  flat : a.isNested = false
  not_nan_left : a.asFloat.isNaN = false
  not_nan_right : b.asFloat.isNaN = false

theorem sqlCompare_isSome_iff : (sqlCompare a b).isSome = true ↔ AreComparable a b := by
  by_cases hkind : a.kindRank = b.kindRank
  · by_cases hnumber : a.kindRank = 2
    · rw [sqlCompare_isSome_numbers hnumber (hkind ▸ hnumber)]
      have hpresent : a ≠ .null := fun h => absurd hnumber (by rw [h]; decide)
      have hflat : a.isNested = false := by cases a <;> first | rfl | cases hnumber
      exact ⟨fun ⟨ha, hb⟩ => ⟨hkind, hpresent, hflat, ha, hb⟩, fun h => ⟨h.not_nan_left, h.not_nan_right⟩⟩
    · refine ⟨fun h => ?_, fun h => ?_⟩
      · have ha : a.asFloat.isNaN = false := by cases a <;> first | rfl | exact absurd rfl hnumber
        have hb : b.asFloat.isNaN = false := by cases b <;> first | rfl | exact absurd hkind hnumber
        refine ⟨hkind, fun hnull => ?_, ?_, ha, hb⟩
        · rw [hnull, sqlCompare_null_left] at h
          cases h
        · cases a <;> first | rfl | (cases b <;> cases h)
      · rw [sqlCompare_of_kindRank_eq hkind hnumber h.present h.flat]
        rfl
  · rw [sqlCompare_of_kindRank_ne hkind]
    exact iff_of_false Bool.false_ne_true fun h => hkind h.sameKind

/-! ## What is equal -/

theorem momentParts_inj {s t : DateTime} : momentParts s = momentParts t ↔ s = t := by
  refine ⟨fun h => ?_, fun h => h ▸ rfl⟩
  obtain ⟨⟨year, month, day, _, _, _⟩, hour, minute, second, nanosecond, _, _, _, _⟩ := s
  obtain ⟨⟨year', month', day', _, _, _⟩, hour', minute', second', nanosecond', _, _, _, _⟩ := t
  simp only [momentParts, List.cons.injEq, Int.natCast_inj, and_true] at h
  obtain ⟨rfl, rfl, rfl, rfl, rfl, rfl, rfl⟩ := h
  rfl

theorem midnight_inj {d e : Date} : DateTime.midnight d = .midnight e ↔ d = e :=
  ⟨fun h => congrArg DateTime.date h, fun h => h ▸ rfl⟩

theorem map_natCast_inj {α : Type} {f : α → Nat} (hf : ∀ x y, f x = f y → x = y) {xs ys : List α} :
    (xs.map fun x => (f x : Int)) = (ys.map fun y => (f y : Int)) ↔ xs = ys := by
  refine List.map_inj_right fun x y h => hf x y ?_
  exact Int.ofNat.inj h

/-- Values of different kinds are not equal. -/
theorem sqlEq_of_kindRank_ne (h : a.kindRank ≠ b.kindRank) : sqlEq a b = false := by
  cases a <;> cases b <;> first | rfl | exact absurd rfl h

/-- Values of the same kind, with the same exceptions, are equal where their contents are. -/
theorem sqlEq_iff_content (h : a.kindRank = b.kindRank) (hnumber : a.kindRank ≠ 2) (hnull : a ≠ .null)
    (hnested : a.isNested = false) : sqlEq a b = true ↔ a.content = b.content := by
  cases a with
  | null => exact absurd rfl hnull
  | int => exact absurd rfl hnumber
  | float => exact absurd rfl hnumber
  | array => cases hnested
  | object => cases hnested
  | bool p =>
    cases b with
    | bool q => cases p <;> cases q <;> decide
    | _ => cases h
  | string s =>
    cases b with
    | string t =>
      rw [content, content, map_natCast_inj fun _ _ => Char.toNat_inj.mp, String.toList_inj]
      exact beq_iff_eq
    | _ => cases h
  | bytes bs =>
    cases b with
    | bytes cs =>
      rw [content, content, map_natCast_inj fun _ _ => UInt8.toNat_inj.mp]
      exact beq_iff_eq
    | _ => cases h
  | date d =>
    cases b with
    | date e =>
      rw [content, content, momentParts_inj, midnight_inj]
      exact beq_iff_eq
    | dateTime t =>
      rw [content, content, momentParts_inj]
      exact beq_iff_eq
    | _ => cases h
  | dateTime s =>
    cases b with
    | date e =>
      rw [content, content, momentParts_inj]
      exact beq_iff_eq.trans eq_comm
    | dateTime t =>
      rw [content, content, momentParts_inj]
      exact beq_iff_eq
    | _ => cases h

/-- Equality and order agree on which numbers are equal. -/
theorem sqlEq_iff_numbers (ha : a.kindRank = 2) (hb : b.kindRank = 2) :
    sqlEq a b = true ↔ sqlCompare a b = some .eq := by
  cases a with
  | int m =>
    cases b with
    | int n =>
      show (m == n) = true ↔ some (compare m.toInt n.toInt) = some .eq
      rw [beq_iff_eq, Option.some.injEq, Int.compare_eq_eq, Int64.toInt_inj]
    | float x => exact Binary64.numericEq_iff
    | _ => cases hb
  | float x =>
    cases b with
    | int n =>
      show (Binary64.ofInt n.toInt).numericEq x = true ↔ x.numericCompare (Binary64.ofInt n.toInt) = some .eq
      rw [Binary64.numericEq_comm, Binary64.numericEq_iff]
    | float y => exact Binary64.numericEq_iff
    | _ => cases hb
  | _ => cases ha

/-- Where a value holds no other values, equality and order agree on what is equal to it. -/
theorem sqlEq_iff_sqlCompare (hnested : a.isNested = false) : sqlEq a b = true ↔ sqlCompare a b = some .eq := by
  by_cases hkind : a.kindRank = b.kindRank
  · by_cases hnumber : a.kindRank = 2
    · exact sqlEq_iff_numbers hnumber (hkind ▸ hnumber)
    by_cases hnull : a = .null
    · rw [hnull, sqlEq_null_left, sqlCompare_null_left]
      decide
    · rw [sqlEq_iff_content hkind hnumber hnull hnested, sqlCompare_of_kindRank_eq hkind hnumber hnull hnested,
        Option.some.injEq, Std.compare_eq_iff_eq]
  · rw [sqlEq_of_kindRank_ne hkind, sqlCompare_of_kindRank_ne hkind]
    decide

end RecordQuery.Value
