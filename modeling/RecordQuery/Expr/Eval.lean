import RecordQuery.Expr.Basic
import RecordQuery.Value.Compare
import RecordQuery.Like
set_option autoImplicit false

/-!
# Expr: evaluation

An expression is evaluated where names have values: in a record, or in a row with records joined to it.
Truth has two values: a comparison with null is false.  The right side of `and` and `or` is looked at only
where the left side does not decide.
-/

namespace RecordQuery

/-- What names mean: plain fields, and fields of a model or alias. -/
structure Scope where
  field : String → Option Value
  qualified : String → String → Option Value

namespace Record

/-- A field of a model in a flat record: a column named `model.field`, else a field of the nested record
under the model's name, else the plain field. -/
def qualified? (r : Record) (model name : String) : Option Value :=
  match Entries.find? r (model ++ "." ++ name) with
  | some v => some v
  | none =>
    match Entries.find? r model with
    | some (.object nested) => Entries.find? nested name
    | _ => Entries.find? r name

/-- The names of a record. -/
def scope (r : Record) : Scope := ⟨Entries.find? r, qualified? r⟩

end Record

namespace Expr

/-- The value of a field; a missing field is null. -/
def lookup (s : Scope) (ref : FieldRef) : Value :=
  (match ref.model with
    | some model => s.qualified model ref.field
    | none => s.field ref.field).getD .null

/-- An order test that fails where the order is undefined. -/
def ordered (test : Ordering → Bool) (a b : Value) : Bool :=
  match Value.sqlCompare a b with
  | some o => test o
  | none => false

/-- Membership in a list, or equality with any other value. -/
def isMember (v : Value) (container : Value) : Bool :=
  match container with
  | .array items => items.any fun item => Value.sqlEq v item
  | single => Value.sqlEq v single

/-- The truth of a comparison of two values; none where the operator does not compare. -/
def compareBy (op : Operator) (a b : Value) : Option Bool :=
  match op with
  | .eq => some (Value.sqlEq a b)
  | .ne => some (!a.isNull && !b.isNull && !Value.sqlEq a b)
  | .lt => some (ordered Ordering.isLT a b)
  | .gt => some (ordered Ordering.isGT a b)
  | .le => some (ordered Ordering.isLE a b)
  | .notGt => some (ordered Ordering.isLE a b)
  | .ge => some (ordered Ordering.isGE a b)
  | .notLt => some (ordered Ordering.isGE a b)
  | .is => some (Value.sameOrBothNull a b)
  | .isNot => some (!Value.sameOrBothNull a b)
  | .like => some (!a.isNull && !b.isNull && RecordQuery.like a.matchText b.matchText)
  | .isIn => some (isMember a b)
  | .or => none
  | .and => none
  | .not => none

/-- The value of an expression. -/
def evaluate (s : Scope) : Expr → Outcome Value
  | .literal _ value => .ok value
  | .field ref => .ok (lookup s ref)
  | .binary left op right =>
    match op with
    | .and => do
      if (← left.evaluate s).truthy then return .bool (← right.evaluate s).truthy
      else return .bool false
    | .or => do
      if (← left.evaluate s).truthy then return .bool true
      else return .bool (← right.evaluate s).truthy
    | op => do
      let a ← left.evaluate s
      let b ← right.evaluate s
      match compareBy op a b with
      | some truth => return .bool truth
      | none => .error (.unsupportedOperator op.describe)
  | .unary op operand =>
    match op with
    | .not => do return .bool (!(← operand.evaluate s).truthy)
    | op => .error (.unsupportedOperator op.describe)
  | .list _ values => .ok (.array values)

/-- Whether an expression holds. -/
def holds (s : Scope) (e : Expr) : Outcome Bool := do return (← e.evaluate s).truthy

end Expr

end RecordQuery
