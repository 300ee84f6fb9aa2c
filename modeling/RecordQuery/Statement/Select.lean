import RecordQuery.Statement.Clauses
set_option autoImplicit false

/-!
# Statement: SELECT

A read becomes one SELECT.  Counting a read that is grouped, distinct or bounded counts the rows of the
SELECT itself; any other count replaces the columns.
-/

namespace RecordQuery

/-- The keyword of a join. -/
def JoinKind.sql : JoinKind → String
  | .inner => "INNER JOIN"
  | .left => "LEFT JOIN"
  | .right => "RIGHT JOIN"

namespace Target

/-- A selected column as SQL. -/
def projectionSql (t : Target) (p : Projection) : Outcome String := do
  let text ← t.fragmentSql p.fragment
  return match p.label with
    | some label => text ++ " AS " ++ t.dialect.quoteField label
    | none => text

/-- The columns of an additional field: one for each field of a record, named `label.field`. -/
def extraFieldSql (t : Target) (f : ExtraField) : Outcome (List String) :=
  match f.record, f.fragment with
  | some model, _ =>
    .ok (model.fields.map fun field =>
      t.dialect.quoteModel f.label ++ "." ++ t.dialect.quoteField field.1 ++ " AS " ++
        t.dialect.quoteField (f.label ++ "." ++ field.1))
  | none, some fragment => do
    return [(← t.fragmentSql fragment) ++ " AS " ++ t.dialect.quoteField f.label]
  | none, none => .ok []

/-- The columns of a read: the selected ones, or all of the source, and the additional fields. -/
def columnsSql (t : Target) (r : ReadSelection) : Outcome String := do
  let selected ←
    if r.projection.isEmpty then pure [t.dialect.quoteModel r.shape.reference ++ ".*"]
    else r.projection.mapM t.projectionSql
  let extra ← r.additional.mapM t.extraFieldSql
  return Text.joined ", " (selected ++ extra.flatten)

/-- An extra source as SQL. -/
def extraSourceSql (t : Target) (owner : Source) (e : ExtraSource) : Outcome String := do
  owner.checkBackend e.source
  return ", " ++ t.labelled e.source.name e.label

/-- A join as SQL; an inner join without a condition is a cross join. -/
def joinSql (t : Target) (owner : Source) (j : Join) : Outcome String := do
  owner.checkBackend j.source
  let condition ← j.condition.sql t.dialect t.registry
  let table := t.labelled j.source.name j.label
  return if condition = "" then
      (match j.kind with
        | .inner => " CROSS JOIN "
        | kind => " " ++ kind.sql ++ " ") ++ table
    else " " ++ j.kind.sql ++ " " ++ table ++ " ON " ++ condition

/-- The GROUP BY and HAVING clauses. -/
def groupingSql (t : Target) (g : Grouping) : Outcome String := do
  let columns ← g.columns.mapM fun e => e.render t.dialect
  let having ← g.having.sql t.dialect t.registry
  return (if columns.isEmpty then "" else " GROUP BY " ++ Text.joined ", " columns) ++
    (if having = "" then "" else " HAVING " ++ having)

/-- A SELECT of some columns, up to the ordering. -/
def selectColumns (t : Target) (r : ReadSelection) (columns : String) : Outcome String := do
  let extra ← r.extraSources.mapM (t.extraSourceSql r.shape.source)
  let joins ← r.joins.mapM (t.joinSql r.shape.source)
  let filter ← t.whereSql r.shape.predicate
  let grouping ← match r.grouping with
    | some g => t.groupingSql g
    | none => pure ""
  return (if r.distinct then "SELECT DISTINCT " else "SELECT ") ++ columns ++ " FROM " ++
    t.sourceSql r.shape ++ String.join extra ++ String.join joins ++ filter ++ grouping

/-- The SELECT of a read. -/
def select (t : Target) (r : ReadSelection) : Outcome String := do
  let columns ← t.columnsSql r
  let text ← t.selectColumns r columns
  let order ← t.orderSql r.shape.ordering
  return text ++ order ++ t.boundsSql r.shape r.shape.offset

/-- The statement that counts the rows of a read in a column `count`. -/
def count (t : Target) (r : ReadSelection) : Outcome String := do
  let column := "COUNT(*) AS " ++ t.dialect.quoteField "count"
  if r.grouping.isSome || r.distinct || r.shape.isBounded then
    let inner ← t.select (if r.shape.isBounded then r else r.mapShape Shape.clearOrder)
    return "SELECT " ++ column ++ " FROM (" ++ inner ++ ") AS " ++ t.dialect.quoteModel "counted"
  else t.selectColumns r column

end Target

end RecordQuery
