import RecordQuery.Statement.Clauses
set_option autoImplicit false

/-!
# Statement: UPDATE and DELETE

A bounded mutation is written directly where the dialect can bound it.  Elsewhere the rows are picked by
their primary key from a bounded SELECT.
-/

namespace RecordQuery

namespace Target

/-- The rows picked by primary key. -/
def keySubset (t : Target) (s : Shape) (key : String) : Outcome String := do
  let keySql := t.dialect.quoteField key
  let filter ← t.whereSql s.predicate
  let order ← t.orderSql s.ordering
  let inner := "SELECT " ++ keySql ++ " FROM " ++ t.sourceSql s ++ filter ++ order ++
    t.boundsSql s s.offset
  return " WHERE " ++ keySql ++ " IN (SELECT " ++ keySql ++ " FROM (" ++ inner ++ ") AS " ++
    t.dialect.quoteModel "subset" ++ ")"

/-- Which rows a mutation touches. -/
def mutationTail (t : Target) (s : Shape) : Outcome String :=
  if !s.isBounded then do
    let filter ← t.whereSql s.predicate
    let order ← if t.dialect.boundsMutations then t.orderSql s.ordering else pure ""
    return filter ++ order
  else if t.dialect.boundsMutations && s.offset == 0 then do
    let filter ← t.whereSql s.predicate
    let order ← t.orderSql s.ordering
    return filter ++ order ++ t.boundsSql s 0
  else
    match s.source.model.primaryKey with
    | some key => t.keySubset s key
    | none => .error (.unsupported (.boundedWithoutKey s.source.name t.dialect))

/-- An assignment as SQL. -/
def assignmentSql (t : Target) (m : Model) (set : String × Assigned) : Outcome String := do
  let value ← match set.2 with
    | .value v => t.fieldLiteral m set.1 v
    | .computed fragment => t.fragmentSql fragment
  return t.dialect.quoteField set.1 ++ " = " ++ value

/-- The label under which the dialect names the table in a FROM clause instead. -/
def labelInFrom (t : Target) (s : Shape) : Option String :=
  if t.dialect.aliasInFrom then s.label else none

/-- The UPDATE of a selection. -/
def update (t : Target) (u : UpdateSelection) : Outcome String :=
  let m := u.shape.source.model
  if u.sets.isEmpty then .error (.invalid (.nothingAssigned m.name))
  else do
    let sets := Text.joined ", " (← u.sets.mapM (t.assignmentSql m))
    let tail ← t.mutationTail u.shape
    return match t.labelInFrom u.shape with
      | some label =>
        "UPDATE " ++ t.dialect.quoteModel label ++ " SET " ++ sets ++ " FROM " ++ t.sourceSql u.shape ++ tail
      | none => "UPDATE " ++ t.sourceSql u.shape ++ " SET " ++ sets ++ tail

/-- The DELETE of a selection. -/
def delete (t : Target) (d : DeleteSelection) : Outcome String := do
  let tail ← t.mutationTail d.shape
  return match t.labelInFrom d.shape with
    | some label => "DELETE " ++ t.dialect.quoteModel label ++ " FROM " ++ t.sourceSql d.shape ++ tail
    | none => "DELETE FROM " ++ t.sourceSql d.shape ++ tail

end Target

end RecordQuery
