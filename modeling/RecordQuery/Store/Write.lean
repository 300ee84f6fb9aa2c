import RecordQuery.Store.Read
set_option autoImplicit false

/-!
# Store: writing

Updates and deletes touch the rows that the predicate, ordering and bounds of their selection pick.  All
assignments see the row as it was.  An insert lands whole or not at all; it fills in serial keys and keeps
primary keys apart.
-/

namespace RecordQuery

namespace Store

/-- The indices and keys of the rows that a predicate accepts, from index `index` on. -/
def hits (st : Store) (owner : Source) (s : Shape) : Nat → List Record → Outcome (List (List Value × Nat))
  | _, [] => .ok []
  | index, base :: rest => do
    let row := Joined.single s.reference owner.name base
    if ← s.predicate.holds row.scope st.registry then
      let keys ← orderKeys row s.ordering
      return (keys, index) :: (← hits st owner s (index + 1) rest)
    else hits st owner s (index + 1) rest

/-- The indices of the rows that a mutation touches, in the order of its ordering. -/
def picked (st : Store) (owner : Source) (s : Shape) : Outcome (List Nat) := do
  return orderedWithin s (← st.hits owner s 0 (← st.table owner.name))

/-- A value for a field, under its declared name and in its declared type. -/
def coerce (m : Model) (name : String) (v : Value) : Outcome (String × Value) :=
  match m.findField? name true with
  | some (name, type) => do return (name, ← type.decode v)
  | none => .error (.invalid (.unknownField m.name name))

/-! ## Update -/

/-- What a row is assigned: every field with its new value, computed in the row as it was. -/
def assignments (st : Store) (owner : Source) (u : UpdateSelection) (base : Record) :
    Outcome (List (String × Value)) :=
  let row := Joined.single u.shape.reference owner.name base
  u.sets.mapM fun set => do
    let v ← match set.2 with
      | .value v => pure v
      | .computed fragment => Joined.fragmentValue st.registry row fragment
    coerce owner.model set.1 v

/-- The changes of the rows with these indices. -/
def changes (st : Store) (owner : Source) (u : UpdateSelection) (rows : List Record) (indices : List Nat) :
    Outcome (List (Nat × List (String × Value))) :=
  indices.mapM fun index => do return (index, ← st.assignments owner u (rows[index]?.getD []))

/-- The rows with the changes made. -/
def applyChanges (rows : List Record) (changes : List (Nat × List (String × Value))) : List Record :=
  changes.foldl (fun rows change => rows.modify change.1 fun r => Entries.insertAll r change.2) rows

/-- Carry out an update; the answer is the number of rows it touched. -/
def update (st : Store) (owner : Source) (u : UpdateSelection) : Outcome (Store × Nat) := do
  owner.checkOwner u.shape.source
  if u.sets.isEmpty then .error (.invalid .nothingToUpdate)
  else do
    let indices ← st.picked owner u.shape
    let rows ← st.table owner.name
    let changes ← st.changes owner u rows indices
    return (st.withTable owner.name (applyChanges rows changes), indices.length)

/-! ## Delete -/

/-- The rows whose index, counted from `index`, is not among the given ones. -/
def without (indices : List Nat) : Nat → List Record → List Record
  | _, [] => []
  | index, r :: rest =>
    if indices.contains index then without indices (index + 1) rest
    else r :: without indices (index + 1) rest

/-- Carry out a delete; the answer is the number of rows it removed. -/
def delete (st : Store) (owner : Source) (d : DeleteSelection) : Outcome (Store × Nat) := do
  owner.checkOwner d.shape.source
  let indices ← st.picked owner d.shape
  let rows ← st.table owner.name
  return (st.withTable owner.name (without indices 0 rows), indices.length)

/-! ## Insert -/

/-- A record for a model: every declared field, null unless it is given. -/
def prepare (m : Model) (r : Record) : Outcome Record :=
  r.foldlM (fun row field => do
    let (name, v) ← coerce m field.1 field.2
    return Entries.insert row name v) m.blankRecord

/-- The integers under a field. -/
def integerKeys (key : String) (rows : List Record) : List Int64 :=
  rows.filterMap fun r => (Entries.find? r key).bind Value.asInt?

/-- The largest of some integers. -/
def maximum? : List Int64 → Option Int64
  | [] => none
  | n :: rest =>
    match maximum? rest with
    | some m => some (if m.toInt ≤ n.toInt then n else m)
    | none => some n

/-- The key after the largest one of the rows, one for no rows; after the largest 64-bit key there is none. -/
def nextKey (key : String) (rows : List Record) : Outcome Int64 :=
  let last := (maximum? (integerKeys key rows)).getD 0
  if last = Int64.maxValue then .error .overflow else .ok (last + 1)

/-- The row with its serial key filled in, and the key if it was generated. -/
def fillKey (m : Model) (rows : List Record) (row : Record) : Outcome (Record × Option Int64) :=
  match m.serialKey? with
  | none => .ok (row, none)
  | some key =>
    if ((Entries.find? row key).getD .null).isNull then do
      let next ← nextKey key rows
      return (Entries.insert row key (.int next), some next)
    else .ok (row, none)

/-- The index of the first row with the same primary key. -/
def sameKey? (m : Model) (rows : List Record) (row : Record) : Option Nat :=
  m.primaryKey.bind fun key =>
    (Entries.find? row key).bind fun v =>
      if v.isNull then none
      else rows.findIdx? fun r =>
        match Entries.find? r key with
        | some other => Value.sqlEq other v
        | none => false

/-- Put a prepared row into a table; the answer holds the key if it was generated. -/
def insertRow (m : Model) (replace : Bool) (rows : List Record) (row : Record) :
    Outcome (List Record × Option Int64) := do
  let (row, key) ← fillKey m rows row
  match sameKey? m rows row with
  | some index =>
    if replace then return (rows.set index row, key)
    else .error (.invalid (.duplicateKey m.name))
  | none => return (rows ++ [row], key)

/-- Put prepared rows into a table, one after the other; the answer holds the last generated key. -/
def insertRows (m : Model) (replace : Bool) :
    List Record → Option Int64 → List Record → Outcome (List Record × Option Int64)
  | [], generated, rows => .ok (rows, generated)
  | row :: rest, generated, rows => do
    let (rows, key) ← insertRow m replace rows row
    insertRows m replace rest (key.or generated) rows

/-- Insert records, over those of the same primary key if `replace`; the answer holds the last generated
key. -/
def insert (st : Store) (owner : Source) (records : List Record) (replace : Bool) :
    Outcome (Store × Option Int64) := do
  let prepared ← records.mapM (prepare owner.model)
  let rows ← st.table owner.name
  let (rows, key) ← insertRows owner.model replace prepared none rows
  return (st.withTable owner.name rows, key)

end Store

end RecordQuery
