import RecordQuery.Selection.Basic
set_option autoImplicit false

/-!
# Selection: refining

Every call answers a new selection and leaves the old one as it was.  Predicate, ordering and bounds can be
refined in every kind; columns, joins and grouping make a selection a read, assignments make it an update.
-/

namespace RecordQuery

namespace Shape

/-- Add a condition. -/
def addCondition (s : Shape) (glue : Glue) (c : Condition) : Shape :=
  { s with predicate := s.predicate.push glue c }

/-- Turn the predicate into its opposite. -/
def negate (s : Shape) : Shape := { s with predicate := s.predicate.negate }

/-- Add an ordering term. -/
def orderBy (s : Shape) (e : Expr) (descending : Bool) : Shape :=
  { s with ordering := s.ordering ++ [⟨e, descending⟩] }

/-- Drop the ordering. -/
def clearOrder (s : Shape) : Shape := { s with ordering := [] }

/-- Turn the direction of every ordering term. -/
def reverseOrder (s : Shape) : Shape :=
  { s with ordering := s.ordering.map fun t => { t with descending := !t.descending } }

/-- Keep so many records. -/
def withLimit (s : Shape) (n : Nat) : Shape := { s with limit := some n }

/-- Skip so many records. -/
def withOffset (s : Shape) (n : Nat) : Shape := { s with offset := n }

/-- Name the rows of the source. -/
def withLabel (s : Shape) (name : String) : Shape := { s with label := some name }

/-- The first record. -/
def first (s : Shape) : Shape := s.withLimit 1

/-- The last record: the first of the opposite order.  Without an ordering the primary key, descending,
decides. -/
def last (s : Shape) : Shape :=
  match s.ordering, s.source.model.primaryKey with
  | [], some key => (s.orderBy (.qualified s.reference key) true).withLimit 1
  | _, _ => s.reverseOrder.withLimit 1

end Shape

namespace ReadSelection

/-- Read the records of a shape. -/
def ofShape (s : Shape) : ReadSelection := ⟨s, [], [], [], [], none, false⟩

/-- The selection with its shape changed. -/
def mapShape (r : ReadSelection) (f : Shape → Shape) : ReadSelection := { r with shape := f r.shape }

/-- Select plain fields, instead of what was selected before. -/
def select (r : ReadSelection) (names : List String) : ReadSelection :=
  { r with projection := names.map fun name => ⟨.expr (Expr.ofFieldName name), none⟩ }

/-- Select one more column. -/
def selectFragment (r : ReadSelection) (fragment : Fragment) (label : Option String) : ReadSelection :=
  { r with projection := r.projection ++ [⟨fragment, label⟩] }

/-- Add a field to the output. -/
def addField (r : ReadSelection) (field : ExtraField) : ReadSelection :=
  { r with additional := r.additional ++ [field] }

/-- Add a computed field, perhaps of a declared type. -/
def addComputed (r : ReadSelection) (label : String) (fragment : Fragment) (type : Option DataType) :
    ReadSelection :=
  r.addField ⟨label, some fragment, type, none⟩

/-- Add the record of a joined model. -/
def addRecord (r : ReadSelection) (label : String) (model : Model) : ReadSelection :=
  r.addField ⟨label, none, none, some model⟩

/-- Group by plain fields. -/
def groupBy (r : ReadSelection) (names : List String) : ReadSelection :=
  { r with grouping := some ⟨names.map Expr.ofFieldName, .empty⟩ }

/-- Group by plain fields and keep the groups for which a condition holds. -/
def groupByHaving (r : ReadSelection) (names : List String) (c : Condition) : ReadSelection :=
  { r with grouping := some ⟨names.map Expr.ofFieldName, Predicate.empty.push .and c⟩ }

/-- Join a source where a condition holds. -/
def join (r : ReadSelection) (kind : JoinKind) (source : Source) (label : String) (c : Condition) :
    ReadSelection :=
  { r with joins := r.joins ++ [⟨source, kind, label, Predicate.empty.push .and c⟩] }

/-- Combine with all rows of a source. -/
def alsoFrom (r : ReadSelection) (source : Source) (label : String) : ReadSelection :=
  { r with extraSources := r.extraSources ++ [⟨source, label⟩] }

/-- Drop repeated rows. -/
def asDistinct (r : ReadSelection) : ReadSelection := { r with distinct := true }

end ReadSelection

/-- Give a field what it is set to, in place if it was set before. -/
def assign : List (String × Assigned) → String → Assigned → List (String × Assigned)
  | [], name, a => [(name, a)]
  | (k, b) :: rest, name, a => if k = name then (k, a) :: rest else (k, b) :: assign rest name a

namespace UpdateSelection

/-- An update of the records of a shape that assigns nothing yet. -/
def ofShape (s : Shape) : UpdateSelection := ⟨s, []⟩

/-- Set a field to a value. -/
def set (u : UpdateSelection) (name : String) (v : Value) : UpdateSelection :=
  { u with sets := assign u.sets name (.value v) }

/-- Set a field to a computed fragment. -/
def setComputed (u : UpdateSelection) (name : String) (fragment : Fragment) : UpdateSelection :=
  { u with sets := assign u.sets name (.computed fragment) }

end UpdateSelection

namespace Selection

/-- The selection as a read, unless it is decided otherwise. -/
def asRead? : Selection → Option ReadSelection
  | .undecided s => some (.ofShape s)
  | .read r => some r
  | _ => none

/-- The selection as an update, unless it is decided otherwise. -/
def asUpdate? : Selection → Option UpdateSelection
  | .undecided s => some (.ofShape s)
  | .update u => some u
  | _ => none

/-- The selection as a delete, unless it is decided otherwise. -/
def asDelete? : Selection → Option DeleteSelection
  | .undecided s => some ⟨s⟩
  | .delete d => some d
  | _ => none

end Selection

end RecordQuery
