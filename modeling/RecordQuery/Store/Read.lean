import RecordQuery.Store.Basic
import RecordQuery.Store.Joined
import RecordQuery.Selection.Refine
import RecordQuery.Row.Gather
import RecordQuery.Expr.Render
import RecordQuery.Sorting
set_option autoImplicit false

/-!
# Store: reading

A read selection over a store answers flat rows in the shape of its SELECT: sources are combined and joined,
filtered, grouped, computed, projected, ordered and cut to the bounds, in this order.  Fetching gathers the
rows into records, counting counts them.
-/

namespace RecordQuery

/-! ## Ordering and bounds -/

/-- The keys that an ordering sorts a row by. -/
def orderKeys (row : Joined) (ordering : List OrderTerm) : Outcome (List Value) :=
  row.values (ordering.map OrderTerm.expr)

/-- Order of keys: the first term that tells them apart decides. -/
def compareKeys : List OrderTerm → List Value → List Value → Ordering
  | term :: terms, a :: as, b :: bs =>
    let o := Value.sortCompare a b
    (if term.descending then o.swap else o).then (compareKeys terms as bs)
  | _, _, _ => .eq

/-- Items in the order of their keys. -/
def sortKeyed {α : Type} (ordering : List OrderTerm) (items : List (List Value × α)) : List (List Value × α) :=
  Sorting.sortBy (fun a b => compareKeys ordering a.1 b.1) items

/-- Skip and keep as many as the bounds of a shape say. -/
def bounded {α : Type} (s : Shape) (items : List α) : List α :=
  match s.limit with
  | some n => (items.drop s.offset).take n
  | none => items.drop s.offset

/-- Items in the order of their keys, cut to the bounds. -/
def orderedWithin {α : Type} (s : Shape) (items : List (List Value × α)) : List α :=
  bounded s ((sortKeyed s.ordering items).map Prod.snd)

/-! ## Projection -/

/-- The name of a selected column without a label: the field, or the expression as SQL. -/
def columnName : Expr → Outcome String
  | .field ref => .ok ref.field
  | e => e.render .postgres

/-- A selected column of a row. -/
def projectedColumn (registry : Registry) (row : Joined) (p : Projection) : Outcome (String × Value) := do
  let e ← match p.fragment with
    | .expr e => pure e
    | .text format args => Expr.parse format ⟨args, registry⟩
  let name ← match p.label with
    | some label => pure label
    | none => columnName e
  return (name, ← e.evaluate row.scope)

/-- The columns of an additional field: those of a joined record, or the computed value. -/
def extraColumns (row : Joined) (f : ExtraField) : Row :=
  match f.record with
  | some m =>
    m.fields.map fun field =>
      (f.label ++ "." ++ field.1,
        ((row.other? f.label).bind fun r => Entries.find? r field.1).getD .null)
  | none => [(f.label, (Entries.find? row.computed f.label).getD .null)]

/-- The columns of a row: the selected ones, or all of the main record, and the additional fields. -/
def project (r : ReadSelection) (registry : Registry) (row : Joined) : Outcome Row := do
  let selected ←
    if r.projection.isEmpty then pure row.base
    else r.projection.mapM (projectedColumn registry row)
  return selected ++ r.additional.flatMap (extraColumns row)

/-- The projected rows with their ordering keys; a distinct read drops repeated rows before their keys are
computed. -/
def keyedRows (r : ReadSelection) (registry : Registry) : List Row → List Joined → Outcome (List (List Value × Row))
  | _, [] => .ok []
  | seen, row :: rest => do
    let columns ← project r registry row
    if r.distinct && seen.any (Value.identicalRows · columns) then keyedRows r registry seen rest
    else do
      let keys ← orderKeys row r.shape.ordering
      return (keys, columns) :: (← keyedRows r registry (seen ++ [columns]) rest)

namespace Store

/-- The rows of another source of this store. -/
def related (st : Store) (owner other : Source) : Outcome (List Record) :=
  if other.backend = st.backend then st.table other.name
  else .error (.foreignSource owner.name other.name)

/-- The rows of the main source, combined with those of the extra sources. -/
def combined (st : Store) (owner : Source) (s : Shape) (extra : List ExtraSource) : Outcome (List Joined) := do
  let base ← st.table owner.name
  extra.foldlM (fun rows e => do return Joined.combine rows (← st.related owner e.source) e.label)
    (base.map (Joined.single s.reference owner.name))

/-- The rows with everything joined; `labels` are those of the rows so far. -/
def joined (st : Store) (owner : Source) (s : Shape) :
    List Join → List String → List Joined → Outcome (List Joined)
  | [], _, rows => .ok rows
  | j :: rest, labels, rows => do
    let others ← st.related owner j.source
    let blank := Joined.blank s.reference owner.name owner.model labels
    joined st owner s rest (labels ++ [j.label]) (← Joined.join j st.registry rows others blank)

/-- The joined rows that a read keeps, grouped and with computed fields. -/
def kept (st : Store) (owner : Source) (r : ReadSelection) : Outcome (List Joined) := do
  let rows ← st.combined owner r.shape r.extraSources
  let rows ← st.joined owner r.shape r.joins (r.extraSources.map ExtraSource.label) rows
  let rows ← Joined.filter r.shape.predicate st.registry rows
  let rows ← match r.grouping with
    | some g => Joined.group g st.registry rows
    | none => pure rows
  rows.mapM (Joined.compute st.registry r.additional)

/-- The flat rows of a read. -/
def read (st : Store) (owner : Source) (r : ReadSelection) : Outcome (List Row) := do
  owner.checkOwner r.shape.source
  let rows ← st.kept owner r
  return orderedWithin r.shape (← keyedRows r st.registry [] rows)

/-- The records of a read. -/
def fetch (st : Store) (owner : Source) (r : ReadSelection) : Outcome (List Record) := do
  let rows ← st.read owner r
  rows.mapM (Gatherer.mk owner.model r.additional true).gather

/-- The first record of a read. -/
def fetchOne (st : Store) (owner : Source) (r : ReadSelection) : Outcome (Option Record) := do
  return (← st.fetch owner (r.mapShape (·.withLimit 1))).head?

/-- Number of records of a read. -/
def count (st : Store) (owner : Source) (r : ReadSelection) : Outcome Nat := do
  return (← st.read owner r).length

end Store

end RecordQuery
