import RecordQuery.Text.Pieces
set_option autoImplicit false

/-!
# Dialect: the SQL dialects

Four dialects of SQL.  A dialect is chosen by name, or guessed from the scheme of a connection URL.
-/

namespace RecordQuery

/-- A dialect of SQL. -/
inductive Dialect where
  | postgres
  | mysql
  | sqlite
  | sqlserver
  deriving DecidableEq, Repr, Inhabited

namespace Dialect

/-- All dialects. -/
def all : List Dialect := [.postgres, .mysql, .sqlite, .sqlserver]

/-- The name of a dialect. -/
def name : Dialect → String
  | .postgres => "postgres"
  | .mysql => "mysql"
  | .sqlite => "sqlite"
  | .sqlserver => "sqlserver"

/-- The dialect with exactly this name. -/
def ofName? (s : String) : Option Dialect := all.find? fun d => d.name == s

/-- The dialect of a lower-case name or alias. -/
def ofAlias? : String → Option Dialect
  | "postgres" => some .postgres
  | "postgresql" => some .postgres
  | "pg" => some .postgres
  | "mysql" => some .mysql
  | "mariadb" => some .mysql
  | "sqlite" => some .sqlite
  | "sqlserver" => some .sqlserver
  | "mssql" => some .sqlserver
  | _ => none

/-- The dialect of a URL scheme. -/
def ofScheme? : String → Option Dialect
  | "postgres" => some .postgres
  | "postgresql" => some .postgres
  | "mysql" => some .mysql
  | "mariadb" => some .mysql
  | "sqlite" => some .sqlite
  | "mssql" => some .sqlserver
  | "sqlserver" => some .sqlserver
  | _ => none

/-- The dialect that the scheme of a URL tells: what stands before the first colon. -/
def ofUrl? (url : String) : Option Dialect :=
  ofScheme? (String.ofList (url.toList.takeWhile (· != ':')))

end Dialect

end RecordQuery
