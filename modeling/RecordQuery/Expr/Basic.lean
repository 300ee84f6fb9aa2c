import RecordQuery.Fault
import RecordQuery.Operator
set_option autoImplicit false

/-!
# Expr: expression trees

An expression is a typed constant, a field, an operation, or a list of constants for the right side of
`in`.  The same tree is evaluated against a record and rendered as SQL.
-/

namespace RecordQuery

/-- A reference to a field, perhaps qualified by a model or alias. -/
structure FieldRef where
  field : String
  /-- an unquoted field is written as it is -/
  quoted : Bool
  model : Option String
  modelQuoted : Bool
  deriving DecidableEq, Repr, Inhabited

/-- An expression. -/
inductive Expr where
  | literal (type : DataType) (value : Value)
  | field (ref : FieldRef)
  | binary (left : Expr) (op : Operator) (right : Expr)
  | unary (op : Operator) (operand : Expr)
  | list (type : DataType) (values : List Value)
  deriving Inhabited

namespace Expr

/-- A constant whose type follows its value. -/
def ofValue (v : Value) : Expr := .literal (.infer v) v

/-- The null constant. -/
def null : Expr := .literal (.text true) .null

/-- A quoted field. -/
def named (name : String) : Expr := .field ⟨name, true, none, false⟩

/-- A quoted field of a quoted model. -/
def qualified (model name : String) : Expr := .field ⟨name, true, some model, true⟩

/-- An unquoted identifier. -/
def raw (text : String) : Expr := .field ⟨text, false, none, false⟩

/-- The negation of an expression. -/
def negation (e : Expr) : Expr := .unary .not e

/-- An operation between two operands by the spelling of its operator. -/
def ofSymbol (left : Expr) (symbol : String) (right : Expr) : Outcome Expr :=
  match Operator.ofLower? (Text.asciiLower symbol) with
  | some op => if op.isBinary then .ok (.binary left op right) else .error (.unsupportedOperator symbol)
  | none => .error (.unsupportedOperator symbol)

/-- The field that a name denotes: what follows the last dot is the field, what precedes it the model. -/
def ofFieldName (name : String) : Expr :=
  match Text.cutLast '.' name.toList with
  | some (model, last) => qualified (String.ofList model) (String.ofList last)
  | none => named name

/-- An operation rather than a constant, field or list. -/
def isCompound : Expr → Bool
  | .binary _ _ _ => true
  | .unary _ _ => true
  | _ => false

/-- An `and` or `or` at the root. -/
def isLogical : Expr → Bool
  | .binary _ .and _ => true
  | .binary _ .or _ => true
  | _ => false

/-- The precedence of the root, `none` where there is no operator. -/
def precedence? : Expr → Option Nat
  | .binary _ op _ => some op.precedence
  | .unary op _ => some op.precedence
  | _ => none

/-- A field reference as messages show it. -/
def describeField (ref : FieldRef) : String :=
  match ref.model with
  | some model => model ++ "." ++ ref.field
  | none => ref.field

/-- An expression as messages show it: every operation between parentheses, constants with their type. -/
def describe : Expr → String
  | .literal type value => type.describe ++ "(" ++ value.describe ++ ")"
  | .field ref => describeField ref
  | .binary left op right => "(" ++ left.describe ++ " " ++ op.describe ++ " " ++ right.describe ++ ")"
  | .unary op operand => op.describe ++ " " ++ operand.describe
  | .list type values => type.describe ++ "(" ++ Text.joined ", " (values.map Value.describe) ++ ")"

end Expr

end RecordQuery
