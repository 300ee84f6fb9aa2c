import RecordQuery.Value.Compare
set_option autoImplicit false

/-!
# Value: sameness without floats

Sameness compares floats as numbers, so that NaN is not the same as itself and both zeros are the same.  A value
without floats at any depth is the same as itself and as nothing else (`identical_iff`), and so are lists and
rows of such values.
-/

namespace RecordQuery.Value

mutual

/-- No float, at any depth. -/
def isFloatFree : Value → Bool
  | .float _ => false
  | .array items => itemsFloatFree items
  | .object entries => entriesFloatFree entries
  | _ => true
termination_by structural v => v

/-- No float among some values. -/
def itemsFloatFree : List Value → Bool
  | [] => true
  | v :: rest => isFloatFree v && itemsFloatFree rest
termination_by structural items => items

/-- No float among some values with names. -/
def entriesFloatFree : List (String × Value) → Bool
  | [] => true
  | (_, v) :: rest => isFloatFree v && entriesFloatFree rest
termination_by structural entries => entries

end

mutual

/-- Without floats, sameness is equality. -/
theorem identical_iff {a b : Value} (h : isFloatFree a = true) : identical a b = true ↔ a = b := by
  match a, h with
  | .null, _ => cases b <;> simp [identical]
  | .bool _, _ => cases b <;> simp [identical]
  | .int _, _ => cases b <;> simp [identical]
  | .string _, _ => cases b <;> simp [identical]
  | .bytes _, _ => cases b <;> simp [identical]
  | .date _, _ => cases b <;> simp [identical]
  | .dateTime _, _ => cases b <;> simp [identical]
  | .array items, h =>
    have hitems : itemsFloatFree items = true := h
    cases b <;> simp [identical, identicalItems_iff hitems]
  | .object entries, h =>
    have hentries : entriesFloatFree entries = true := h
    cases b <;> simp [identical, identicalEntries_iff hentries]
termination_by structural a

theorem identicalItems_iff {as bs : List Value} (h : itemsFloatFree as = true) :
    identicalItems as bs = true ↔ as = bs := by
  match as, h with
  | [], _ => cases bs <;> simp [identicalItems]
  | a :: rest, h =>
    obtain ⟨ha, hrest⟩ := Bool.and_eq_true_iff.mp h
    cases bs with
    | nil => simp [identicalItems]
    | cons b bs => simp [identicalItems, identical_iff ha, identicalItems_iff hrest]
termination_by structural as

theorem identicalEntries_iff {as bs : List (String × Value)} (h : entriesFloatFree as = true) :
    identicalEntries as bs = true ↔ as = bs := by
  match as, h with
  | [], _ => cases bs <;> simp [identicalEntries]
  | (name, a) :: rest, h =>
    obtain ⟨ha, hrest⟩ := Bool.and_eq_true_iff.mp h
    cases bs with
    | nil => simp [identicalEntries]
    | cons b bs => simp [identicalEntries, Prod.ext_iff, identical_iff ha, identicalEntries_iff hrest]
termination_by structural as

end

/-- Without floats, rows are the same when they are equal. -/
theorem identicalRows_iff {a b : Row} (h : entriesFloatFree a = true) : identicalRows a b = true ↔ a = b :=
  identicalEntries_iff h

end RecordQuery.Value
