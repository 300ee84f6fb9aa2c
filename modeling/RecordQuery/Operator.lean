set_option autoImplicit false

/-!
# Operator: the operators of expressions

Operators come in four strengths: `or`, `and`, `not` and the comparisons.  Each has a spelling in
placeholder formats and one in SQL.
-/

namespace RecordQuery

/-- How a clause is joined to those before it. -/
inductive Glue where
  | and
  | or
  deriving DecidableEq, Repr, Inhabited

/-- The SQL word of a glue. -/
def Glue.sql : Glue → String
  | .and => "AND"
  | .or => "OR"

/-- An operator of an expression. -/
inductive Operator where
  | or
  | and
  | not
  | eq
  | ne
  | lt
  | gt
  | le
  | ge
  /-- not less than, the same as `ge` -/
  | notLt
  /-- not greater than, the same as `le` -/
  | notGt
  | is
  | isNot
  | like
  | isIn
  deriving DecidableEq, Repr, Inhabited

namespace Operator

/-- The operator of a lower-case spelling. -/
def ofLower? : String → Option Operator
  | "or" => some .or
  | "and" => some .and
  | "not" => some .not
  | "=" => some .eq
  | "!=" => some .ne
  | "<>" => some .ne
  | "<" => some .lt
  | ">" => some .gt
  | "<=" => some .le
  | ">=" => some .ge
  | "!<" => some .notLt
  | "!>" => some .notGt
  | "is" => some .is
  | "is not" => some .isNot
  | "like" => some .like
  | "in" => some .isIn
  | _ => none

/-- The operator as SQL; `!<` and `!>` are spelled so that every dialect reads them. -/
def sql : Operator → String
  | .or => "OR"
  | .and => "AND"
  | .not => "NOT"
  | .eq => "="
  | .ne => "!="
  | .lt => "<"
  | .gt => ">"
  | .le => "<="
  | .ge => ">="
  | .notLt => ">="
  | .notGt => "<="
  | .is => "IS"
  | .isNot => "IS NOT"
  | .like => "LIKE"
  | .isIn => "IN"

/-- The operator as messages show it. -/
def describe : Operator → String
  | .notLt => "!<"
  | .notGt => "!>"
  | op => op.sql

/-- Binding strength; a higher one binds tighter. -/
def precedence : Operator → Nat
  | .or => 1
  | .and => 2
  | .not => 3
  | _ => 4

/-- The operator compares two values. -/
def isComparison (op : Operator) : Bool := op.precedence == 4

/-- The operator may stand between two operands. -/
def isBinary : Operator → Bool
  | .not => false
  | _ => true

end Operator

end RecordQuery
