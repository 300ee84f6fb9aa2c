import RecordQuery.Fault
set_option autoImplicit false

/-!
# Model: schemas and sources

A model describes the records of one table: its name, its typed fields and its primary key.  A source is a
model on a backend; sources of one backend can be joined.
-/

namespace RecordQuery

/-- The schema of a table. -/
structure Model where
  name : String
  fields : List (String × DataType)
  primaryKey : Option String
  deriving DecidableEq, Repr, Inhabited

namespace Model

/-- A model without fields. -/
def empty (name : String) : Model := ⟨name, [], none⟩

/-- The type of a field. -/
def fieldType? (m : Model) (name : String) : Option DataType :=
  (m.fields.find? fun f => f.1 == name).map Prod.snd

/-- The first field of a name, perhaps up to the case of ASCII letters, as it is declared. -/
def findField? (m : Model) (name : String) (caseSensitive : Bool) : Option (String × DataType) :=
  m.fields.find? fun f => if caseSensitive then f.1 == name else Text.equalIgnoringCase f.1 name

/-- The primary key, if the backend generates its values. -/
def serialKey? (m : Model) : Option String :=
  m.primaryKey.bind fun key =>
    match m.fieldType? key with
    | some (.integer _ _ true) => some key
    | _ => none

/-- A record with every field null. -/
def blankRecord (m : Model) : Record := Entries.ofPairs (m.fields.map fun f => (f.1, .null))

end Model

/-- A model on a backend; backends are told apart by number. -/
structure Source where
  backend : Nat
  model : Model
  deriving DecidableEq, Repr, Inhabited

namespace Source

/-- The table name of a source. -/
def name (s : Source) : String := s.model.name

/-- Fail unless the other source lives on the same backend. -/
def checkBackend (owner other : Source) : Outcome Unit :=
  if owner.backend = other.backend then .ok () else .error (.foreignSource owner.name other.name)

/-- Fail unless a selection was built over this source. -/
def checkOwner (owner other : Source) : Outcome Unit :=
  if owner.backend = other.backend ∧ owner.name = other.name then .ok ()
  else .error (.foreignSource owner.name other.name)

end Source

end RecordQuery
