import RecordQuery.Value.Basic
set_option autoImplicit false

/-!
# Value: equality and order

Three relations.  `identical` is sameness of constructor and content.  `sqlEq` and `sqlCompare` are the
comparisons of filters: null compares with nothing, integers and floats compare as numbers, a date
compares with a moment as its midnight.  `sortCompare` orders any two values, nulls first.
-/

namespace RecordQuery.Value

/-! ## Sameness -/

mutual

/-- The same constructor with the same content; floats by their numeric equality, so NaN differs from
itself. -/
def identical : Value → Value → Bool
  | .null, .null => true
  | .bool a, .bool b => a == b
  | .int a, .int b => a == b
  | .float a, .float b => a.numericEq b
  | .string a, .string b => a == b
  | .bytes a, .bytes b => a == b
  | .date a, .date b => a == b
  | .dateTime a, .dateTime b => a == b
  | .array a, .array b => identicalItems a b
  | .object a, .object b => identicalEntries a b
  | _, _ => false
termination_by structural a => a

/-- Lists of the same length with identical items. -/
def identicalItems : List Value → List Value → Bool
  | [], [] => true
  | a :: as, b :: bs => identical a b && identicalItems as bs
  | _, _ => false
termination_by structural as => as

/-- Objects with the same names and identical values. -/
def identicalEntries : List (String × Value) → List (String × Value) → Bool
  | [], [] => true
  | (k, a) :: as, (l, b) :: bs => k == l && identical a b && identicalEntries as bs
  | _, _ => false
termination_by structural as => as

end

/-- Rows with the same column names and identical values. -/
def identicalRows (a b : Row) : Bool := identicalEntries a b

/-! ## Comparison in filters -/

mutual

/-- Equality in a filter. -/
def sqlEq : Value → Value → Bool
  | .null, _ => false
  | .int a, .float b => (Binary64.ofInt a.toInt).numericEq b
  | .float a, .int b => (Binary64.ofInt b.toInt).numericEq a
  | .date a, .dateTime b => DateTime.midnight a == b
  | .dateTime a, .date b => DateTime.midnight b == a
  | .array a, .array b => sqlEqItems a b
  | a, b => identical a b
termination_by structural a => a

/-- Lists of the same length with pairwise equal items. -/
def sqlEqItems : List Value → List Value → Bool
  | [], [] => true
  | a :: as, b :: bs => sqlEq a b && sqlEqItems as bs
  | _, _ => false
termination_by structural as => as

end

/-- Order in a filter; none where a side is null or the kinds do not compare. -/
def sqlCompare : Value → Value → Option Ordering
  | .int a, .int b => some (compare a.toInt b.toInt)
  | .int a, .float b => (Binary64.ofInt a.toInt).numericCompare b
  | .float a, .int b => a.numericCompare (Binary64.ofInt b.toInt)
  | .float a, .float b => a.numericCompare b
  | .string a, .string b => some (Text.compareText a b)
  | .bool a, .bool b => some (compare a b)
  | .date a, .date b => some (a.compare b)
  | .dateTime a, .dateTime b => some (a.compare b)
  | .date a, .dateTime b => some ((DateTime.midnight a).compare b)
  | .dateTime a, .date b => some (a.compare (DateTime.midnight b))
  | .bytes a, .bytes b => some (List.compareLex (fun x y => compare x.toNat y.toNat) a b)
  | _, _ => none

/-- Both null, or both present and equal. -/
def sameOrBothNull (a b : Value) : Bool :=
  match a, b with
  | .null, .null => true
  | a, b => sqlEq a b

/-! ## Order for sorting -/

/-- The rank of a kind among values that do not compare. -/
def kindRank : Value → Nat
  | .null => 0
  | .bool _ => 1
  | .int _ => 2
  | .float _ => 2
  | .string _ => 3
  | .date _ => 4
  | .dateTime _ => 4
  | .bytes _ => 5
  | .array _ => 6
  | .object _ => 7

/-- Order for sorting: nulls first, then as in filters, then by kind. -/
def sortCompare (a b : Value) : Ordering :=
  match a, b with
  | .null, .null => .eq
  | .null, _ => .lt
  | _, .null => .gt
  | a, b => (sqlCompare a b).getD (compare a.kindRank b.kindRank)

@[simp] theorem sqlEq_null_left (v : Value) : sqlEq .null v = false := by simp [sqlEq]

@[simp] theorem sqlEq_null_right (v : Value) : sqlEq v .null = false := by
  cases v <;> simp [sqlEq, identical]

@[simp] theorem sqlCompare_null_left (v : Value) : sqlCompare .null v = none := by
  cases v <;> rfl

@[simp] theorem sqlCompare_null_right (v : Value) : sqlCompare v .null = none := by
  cases v <;> rfl

end RecordQuery.Value
