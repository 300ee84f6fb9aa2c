import RecordQuery.Expr.Basic
import RecordQuery.Dialect.Quoting
set_option autoImplicit false

/-!
# Expr: rendering as SQL

An expression is written with the fewest parentheses that keep its grouping: around an operand that binds
weaker than its operator, around an operand on the right of a comparison that binds no tighter, and around
a negated operation.
-/

namespace RecordQuery.Expr

/-- A field reference as SQL. -/
def renderField (d : Dialect) (ref : FieldRef) : String :=
  let field := if ref.quoted then d.quoteField ref.field else ref.field
  match ref.model with
  | some model => (if ref.modelQuoted then d.quoteModel model else model) ++ "." ++ field
  | none => field

/-- Literals of one type between parentheses; `(NULL)` for none. -/
def renderList (d : Dialect) (type : DataType) (values : List Value) : Outcome String := do
  if values.isEmpty then return "(NULL)"
  else return "(" ++ Text.joined ", " (← values.mapM (d.quoteLiteral type)) ++ ")"

/-- The text of an operand beside an operator of some precedence; `strict` also wraps an equal one. -/
def wrapOperand (operand : Expr) (text : String) (parent : Nat) (strict : Bool) : String :=
  match operand.precedence? with
  | some own => if own < parent || (strict && own == parent) then "(" ++ text ++ ")" else text
  | none => text

/-- The null constant stands on the right. -/
def isNullLiteral : Expr → Bool
  | .literal _ .null => true
  | _ => false

/-- The expression is a list. -/
def isList : Expr → Bool
  | .list _ _ => true
  | _ => false

/-- The text of the right operand. -/
def wrapRight (op : Operator) (operand : Expr) (text : String) : String :=
  match op with
  | .isIn => if operand.isList then text else "(" ++ text ++ ")"
  | op => wrapOperand operand text op.precedence op.isComparison

/-- An expression as SQL. -/
def render (d : Dialect) : Expr → Outcome String
  | .literal type value => d.quoteLiteral type value
  | .field ref => .ok (renderField d ref)
  | .binary left op right =>
    if !op.isBinary then .error (.unsupportedOperator op.describe)
    else do
      let lhs := wrapOperand left (← left.render d) op.precedence false
      let rhs ←
        if (op = .is ∨ op = .isNot) ∧ right.isNullLiteral = true then pure "NULL"
        else do pure (wrapRight op right (← right.render d))
      return lhs ++ " " ++ op.sql ++ " " ++ rhs
  | .unary op operand =>
    if op ≠ .not then .error (.unsupportedOperator op.describe)
    else do
      let inner ← operand.render d
      return if operand.isCompound then "NOT (" ++ inner ++ ")" else "NOT " ++ inner
  | .list type values => renderList d type values

end RecordQuery.Expr
