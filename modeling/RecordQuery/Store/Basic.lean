import RecordQuery.Model
set_option autoImplicit false

/-!
# Store: tables of records

A store is one backend that keeps tables of records by name.  Placeholder clauses over it resolve
enumerations in its registry.
-/

namespace RecordQuery

/-- Tables that share a backend. -/
structure Store where
  backend : Nat
  registry : Registry
  tables : Entries (List Record)
  deriving Inhabited

namespace Store

/-- A store without tables. -/
def empty (backend : Nat) (registry : Registry) : Store := ⟨backend, registry, []⟩

/-- The source of a model on this store. -/
def source (st : Store) (m : Model) : Source := ⟨st.backend, m⟩

/-- Give a model its rows, instead of a table of the same name. -/
def attach (st : Store) (m : Model) (rows : List Record) : Store :=
  { st with tables := Entries.insert st.tables m.name rows }

/-- The rows of a table. -/
def table (st : Store) (name : String) : Outcome (List Record) :=
  match Entries.find? st.tables name with
  | some rows => .ok rows
  | none => .error (.unsupported (.noTable name))

/-- The store with the rows of a table replaced. -/
def withTable (st : Store) (name : String) (rows : List Record) : Store :=
  { st with tables := Entries.insert st.tables name rows }

theorem table_withTable (st : Store) (name : String) (rows : List Record) (other : String) :
    (st.withTable name rows).table other = if name = other then .ok rows else st.table other := by
  by_cases h : name = other <;> simp [withTable, table, Entries.find?_insert, h]

end Store

end RecordQuery
