import RecordQuery.Statement.Select
import RecordQuery.Statement.Mutation
import RecordQuery.Statement.Insert
import RecordQuery.Row.Gather
set_option autoImplicit false

/-!
# Connection: selections over an SQL backend

A model on an SQL connection: selections are written as statements, the connection answers them, and answered
rows are gathered into records.  Every call keeps the requests that it sent.
-/

namespace RecordQuery

/-- What is sent over a connection. -/
inductive Request where
  | query (sql : String)
  | execute (sql : String)
  | insert (sql : String) (key : Option GeneratedKey)
  deriving DecidableEq, Repr, Inhabited

/-- How a connection answers. -/
structure Connection where
  query : String → Outcome (List Row)
  execute : String → Outcome Nat
  insert : String → Option GeneratedKey → Outcome (Option Value)

/-- The result of a call and the requests that it sent, in order. -/
structure Transcript (α : Type) where
  result : Outcome α
  requests : List Request

/-- A model on an SQL connection. -/
structure SqlSource where
  target : Target
  source : Source
  /-- match result columns to fields up to the case of ASCII letters, whatever the dialect -/
  ignoreCase : Bool
  deriving Inhabited

namespace SqlSource

/-- Result columns are matched to fields in the same case only. -/
def caseSensitive (s : SqlSource) : Bool := s.target.dialect.caseSensitiveFields && !s.ignoreCase

/-- Send a statement, unless it could not be written. -/
def send {α : Type} (statement : Outcome String) (request : String → Request) (answer : String → Outcome α) :
    Transcript α :=
  match statement with
  | .ok sql => ⟨answer sql, [request sql]⟩
  | .error fault => ⟨.error fault, []⟩

/-- The statement of a selection over this source. -/
def statement (s : SqlSource) (shape : Shape) (write : Outcome String) : Outcome String := do
  s.source.checkOwner shape.source
  write

/-- The count that a count statement answered. -/
def countOf (rows : List Row) : Outcome Nat :=
  match rows with
  | ((_, v) :: _) :: _ => do
    match ← DataType.int.decode v with
    | .int n => if 0 ≤ n.toInt then return n.toInt.toNat else .error (.backend (.badCount (.int n)))
    | other => .error (.backend (.badCount other))
  | _ => .error (.backend .countMissing)

/-- The records of a read. -/
def fetch (s : SqlSource) (c : Connection) (r : ReadSelection) : Transcript (List Record) :=
  send (s.statement r.shape (s.target.select r)) .query fun sql => do
    (← c.query sql).mapM (Gatherer.mk s.source.model r.additional s.caseSensitive).gather

/-- The first record of a read. -/
def fetchOne (s : SqlSource) (c : Connection) (r : ReadSelection) : Transcript (Option Record) :=
  let all := s.fetch c (r.mapShape (·.withLimit 1))
  ⟨do return (← all.result).head?, all.requests⟩

/-- The number of records of a read. -/
def count (s : SqlSource) (c : Connection) (r : ReadSelection) : Transcript Nat :=
  send (s.statement r.shape (s.target.count r)) .query fun sql => do countOf (← c.query sql)

/-- Carry out an update. -/
def update (s : SqlSource) (c : Connection) (u : UpdateSelection) : Transcript Nat :=
  send (s.statement u.shape (s.target.update u)) .execute c.execute

/-- Carry out a delete. -/
def delete (s : SqlSource) (c : Connection) (d : DeleteSelection) : Transcript Nat :=
  send (s.statement d.shape (s.target.delete d)) .execute c.execute

/-- Insert records; the answer is the generated key. -/
def insert (s : SqlSource) (c : Connection) (records : List Record) (replace : Bool) :
    Transcript (Option Value) :=
  match s.target.insert s.source records replace with
  | .ok statement => ⟨c.insert statement.sql statement.key, [.insert statement.sql statement.key]⟩
  | .error fault => ⟨.error fault, []⟩

end SqlSource

end RecordQuery
