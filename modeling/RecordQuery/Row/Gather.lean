import RecordQuery.Coercion
import RecordQuery.Selection.Basic
set_option autoImplicit false

/-!
# Row: gathering records

A result row is flat.  Its columns go to four places: a column `label.field` to the sub-record of that label,
a column of a computed field's label to that field, a declared column to its field, any other column to a
field of its own name.  Declared and typed columns are decoded.  A sub-record without any value is null.
-/

namespace RecordQuery

/-- What the columns of a row are matched against. -/
structure Gatherer where
  model : Model
  additional : List ExtraField
  caseSensitive : Bool
  deriving Inhabited

/-- Where a column goes. -/
inductive Route where
  /-- to a field of the sub-record with this index among the additional fields -/
  | nested (index : Nat) (field : String)
  | computed (field : ExtraField)
  | declared (name : String) (type : DataType)
  | plain (name : String)
  deriving Inhabited

namespace Gatherer

/-- Two names are the same, perhaps up to the case of ASCII letters. -/
def sameName (g : Gatherer) (a b : String) : Bool :=
  if g.caseSensitive then a == b else Text.equalIgnoringCase a b

/-- The sub-record and field that a column names: what precedes the first dot is the label. -/
def nested? (g : Gatherer) (column : String) : Option (Nat × String) :=
  (Text.cutFirst '.' column.toList).bind fun (label, field) =>
    (g.additional.findIdx? fun f => f.record.isSome && g.sameName f.label (String.ofList label)).map
      fun index => (index, String.ofList field)

/-- The computed field that a column names. -/
def computed? (g : Gatherer) (column : String) : Option ExtraField :=
  g.additional.find? fun f => f.record.isNone && g.sameName f.label column

/-- Where a column goes. -/
def route (g : Gatherer) (column : String) : Route :=
  match g.nested? column with
  | some (index, field) => .nested index field
  | none =>
    match g.computed? column with
    | some f => .computed f
    | none =>
      match g.model.findField? column g.caseSensitive with
      | some (name, type) => .declared name type
      | none => .plain column

/-- The value of a computed field: decoded if it has a type. -/
def decodeComputed (f : ExtraField) (v : Value) : Outcome Value :=
  match f.type with
  | some t => t.decode v
  | none => .ok v

/-- Put a column of the row itself into a record; columns of sub-records are left for later. -/
def putColumn (g : Gatherer) (r : Record) (column : String × Value) : Outcome Record :=
  match g.route column.1 with
  | .nested _ _ => .ok r
  | .computed f => do return Entries.insert r f.label (← decodeComputed f column.2)
  | .declared name type => do return Entries.insert r name (← type.decode column.2)
  | .plain name => .ok (Entries.insert r name column.2)

/-- The columns of a sub-record, by their field names. -/
def nestedColumns (g : Gatherer) (row : Row) (index : Nat) : Row :=
  row.filterMap fun column =>
    match g.route column.1 with
    | .nested i field => if i = index then some (field, column.2) else none
    | _ => none

/-- Put a column of a sub-record into its record. -/
def putNested (g : Gatherer) (m : Model) (r : Record) (column : String × Value) : Outcome Record :=
  match m.findField? column.1 g.caseSensitive with
  | some (name, type) => do return Entries.insert r name (← type.decode column.2)
  | none => .ok (Entries.insert r column.1 column.2)

/-- The value of a sub-record: null where all its columns are null. -/
def subRecord (g : Gatherer) (m : Model) (columns : Row) : Outcome Value :=
  if columns.all fun column => column.2.isNull then .ok .null
  else do return .object (← columns.foldlM (g.putNested m) [])

/-- Put the sub-records of the additional fields from `index` on into a record. -/
def putSubRecords (g : Gatherer) (row : Row) : Nat → List ExtraField → Record → Outcome Record
  | _, [], r => .ok r
  | index, f :: rest, r =>
    match f.record, g.nestedColumns row index with
    | some m, c :: columns => do
      let sub ← g.subRecord m (c :: columns)
      putSubRecords g row (index + 1) rest (Entries.insert r f.label sub)
    | _, _ => putSubRecords g row (index + 1) rest r

/-- The record of a row. -/
def gather (g : Gatherer) (row : Row) : Outcome Record := do
  let r ← row.foldlM g.putColumn []
  g.putSubRecords row 0 g.additional r

end Gatherer

end RecordQuery
