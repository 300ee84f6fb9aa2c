import RecordQuery.Condition.Render
import RecordQuery.Selection.Refine
set_option autoImplicit false

/-!
# Statement: clauses that several statements share

Statements are written for a target: a dialect and the enumerations that placeholders may name.
-/

namespace RecordQuery

/-- What statements are written for. -/
structure Target where
  dialect : Dialect
  registry : Registry
  deriving Inhabited

namespace Target

/-- A dialect without enumerations. -/
def ofDialect (d : Dialect) : Target := ⟨d, []⟩

/-- A fragment as SQL. -/
def fragmentSql (t : Target) : Fragment → Outcome String
  | .expr e => e.render t.dialect
  | .text format args => Format.interpolate t.dialect format ⟨args, t.registry⟩

/-- A value for a field as a literal; the type of an undeclared field follows its value. -/
def fieldLiteral (t : Target) (m : Model) (name : String) (v : Value) : Outcome String :=
  t.dialect.quoteLiteral ((m.fieldType? name).getD (.infer v)) v

/-- An ordering term as SQL. -/
def orderTermSql (t : Target) (term : OrderTerm) : Outcome String := do
  let text ← term.expr.render t.dialect
  return if term.descending then text ++ " DESC" else text

/-- The ORDER BY clause, empty without an ordering. -/
def orderSql (t : Target) (ordering : List OrderTerm) : Outcome String :=
  if ordering.isEmpty then .ok ""
  else do return " ORDER BY " ++ Text.joined ", " (← ordering.mapM t.orderTermSql)

/-- The WHERE clause, empty where nothing is demanded. -/
def whereSql (t : Target) (p : Predicate) : Outcome String := do
  let text ← p.sql t.dialect t.registry
  return if text = "" then "" else " WHERE " ++ text

/-- A table under its label. -/
def labelled (t : Target) (table label : String) : String :=
  t.dialect.quoteModel table ++ " AS " ++ t.dialect.quoteModel label

/-- The source of a shape, under its label if it has one. -/
def sourceSql (t : Target) (s : Shape) : String :=
  match s.label with
  | some label => t.labelled s.source.name label
  | none => t.dialect.quoteModel s.source.name

/-- The clause that bounds a statement over a shape. -/
def boundsSql (t : Target) (s : Shape) (offset : Nat) : String :=
  t.dialect.limitOffset s.limit offset (!s.ordering.isEmpty)

end Target

end RecordQuery
