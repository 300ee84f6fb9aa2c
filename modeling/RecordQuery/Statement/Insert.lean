import RecordQuery.Statement.Clauses
set_option autoImplicit false

/-!
# Statement: INSERT

All records of an INSERT set the same fields.  A serial primary key that they leave out is generated and read
back.  A replacing INSERT overwrites rows of the same primary key.
-/

namespace RecordQuery

/-- The column of a generated key and how it is read back. -/
structure GeneratedKey where
  column : String
  retrieval : KeyRetrieval
  deriving DecidableEq, Repr, Inhabited

/-- An INSERT and the key to read back. -/
structure InsertStatement where
  sql : String
  key : Option GeneratedKey
  deriving DecidableEq, Repr, Inhabited

namespace Target

/-- The key that an INSERT of records with these columns generates. -/
def generatedKey (t : Target) (m : Model) (columns : List String) : Option GeneratedKey :=
  m.serialKey?.bind fun key =>
    if columns.contains key then none else some ⟨key, t.dialect.keyRetrieval⟩

/-- The verb of an INSERT. -/
def insertVerb (t : Target) (replace : Bool) : Outcome String :=
  match replace, t.dialect with
  | false, _ => .ok "INSERT INTO "
  | true, .postgres => .ok "INSERT INTO "
  | true, .mysql => .ok "REPLACE INTO "
  | true, .sqlite => .ok "REPLACE INTO "
  | true, .sqlserver => .error (.unsupported .noReplace)

/-- The OUTPUT clause, where the dialect reads keys back by one. -/
def outputSql (t : Target) : Option GeneratedKey → String
  | some ⟨column, .output⟩ => " OUTPUT INSERTED." ++ t.dialect.quoteField column
  | _ => ""

/-- The RETURNING clause, where the dialect reads keys back by one. -/
def returningSql (t : Target) : Option GeneratedKey → String
  | some ⟨column, .returning⟩ => " RETURNING " ++ t.dialect.quoteField column
  | _ => ""

/-- The values of a record as SQL. -/
def rowSql (t : Target) (m : Model) (columns : List String) (r : Record) : Outcome String := do
  let values ← columns.mapM fun c => t.fieldLiteral m c ((Entries.find? r c).getD .null)
  return "(" ++ Text.joined ", " values ++ ")"

/-- Columns and rows of an INSERT; `output` stands before the rows. -/
def rowsSql (t : Target) (m : Model) (columns : List String) (records : List Record) (output : String) :
    Outcome String :=
  if columns.isEmpty then
    if 1 < records.length then .error (.invalid .severalEmptyRows)
    else .ok (if t.dialect = .mysql then " () VALUES ()" else output ++ " DEFAULT VALUES")
  else do
    let rows ← records.mapM (t.rowSql m columns)
    return " (" ++ Text.joined ", " (columns.map t.dialect.quoteField) ++ ")" ++ output ++ " VALUES " ++
      Text.joined ", " rows

/-- What happens to a row whose primary key exists, where the verb does not say it. -/
def conflictSql (t : Target) (m : Model) (columns : List String) (replace : Bool) : Outcome String :=
  if replace && t.dialect == .postgres then
    match m.primaryKey with
    | none => .error (.unsupported (.upsertWithoutKey m.name))
    | some key =>
      let updates := (columns.filter (· != key)).map fun c =>
        t.dialect.quoteField c ++ " = EXCLUDED." ++ t.dialect.quoteField c
      .ok (" ON CONFLICT (" ++ t.dialect.quoteField key ++ ") DO " ++
        (if updates.isEmpty then "NOTHING" else "UPDATE SET " ++ Text.joined ", " updates))
  else .ok ""

/-- Every record sets exactly these fields. -/
def sameFields (columns : List String) (records : List Record) : Bool :=
  records.all fun r => r.length == columns.length && columns.all (Entries.contains r)

/-- The INSERT of records into a source. -/
def insert (t : Target) (source : Source) (records : List Record) (replace : Bool) :
    Outcome InsertStatement :=
  let m := source.model
  match records with
  | [] => .error (.invalid (.nothingToInsert m.name))
  | first :: _ =>
    let columns := Entries.names first
    if !sameFields columns records then .error (.invalid (.unequalFields m.name))
    else do
      let key := t.generatedKey m columns
      let verb ← t.insertVerb replace
      let rows ← t.rowsSql m columns records (t.outputSql key)
      let conflict ← t.conflictSql m columns replace
      return ⟨verb ++ t.dialect.quoteModel m.name ++ rows ++ conflict ++ t.returningSql key, key⟩

end Target

end RecordQuery
