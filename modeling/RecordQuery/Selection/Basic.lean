import RecordQuery.Condition.Basic
import RecordQuery.Model
set_option autoImplicit false

/-!
# Selection: query shapes

A selection says which records of a source are meant and what is done with them: they are read, updated or
deleted.  Every kind shares a shape: source, predicate, ordering and bounds.  A selection may be undecided
until a call asks for something that only one kind has.
-/

namespace RecordQuery

/-- A column expression, as a tree or as a placeholder format with its values. -/
inductive Fragment where
  | expr (e : Expr)
  | text (format : String) (args : List Value)
  deriving Inhabited

/-- A term of an ordering. -/
structure OrderTerm where
  expr : Expr
  descending : Bool
  deriving Inhabited

/-- What every kind of selection has. -/
structure Shape where
  source : Source
  predicate : Predicate
  ordering : List OrderTerm
  limit : Option Nat
  offset : Nat
  label : Option String
  deriving Inhabited

/-- A selected column, perhaps renamed. -/
structure Projection where
  fragment : Fragment
  label : Option String
  deriving Inhabited

/-- An additional output field: a computed column, perhaps of a declared type, or the record of a joined
model. -/
structure ExtraField where
  label : String
  fragment : Option Fragment
  type : Option DataType
  record : Option Model
  deriving Inhabited

/-- What becomes of rows without a partner. -/
inductive JoinKind where
  | inner
  | left
  | right
  deriving DecidableEq, Repr, Inhabited

/-- A source joined under a label where a condition holds. -/
structure Join where
  source : Source
  kind : JoinKind
  label : String
  condition : Predicate
  deriving Inhabited

/-- A source whose rows are all combined with the others. -/
structure ExtraSource where
  source : Source
  label : String
  deriving Inhabited

/-- Grouping by columns, keeping the groups for which a predicate holds. -/
structure Grouping where
  columns : List Expr
  having : Predicate
  deriving Inhabited

/-- A selection that reads. -/
structure ReadSelection where
  shape : Shape
  projection : List Projection
  additional : List ExtraField
  extraSources : List ExtraSource
  joins : List Join
  grouping : Option Grouping
  distinct : Bool
  deriving Inhabited

/-- What a field is set to: a value, or a fragment that is computed. -/
inductive Assigned where
  | value (v : Value)
  | computed (fragment : Fragment)
  deriving Inhabited

/-- A selection that updates: fields with what they are set to, in the order they were first set. -/
structure UpdateSelection where
  shape : Shape
  sets : List (String × Assigned)
  deriving Inhabited

/-- A selection that deletes. -/
structure DeleteSelection where
  shape : Shape
  deriving Inhabited

/-- A selection of any kind. -/
inductive Selection where
  | undecided (shape : Shape)
  | read (r : ReadSelection)
  | update (u : UpdateSelection)
  | delete (d : DeleteSelection)
  deriving Inhabited

namespace Shape

/-- All records of a source. -/
def ofSource (source : Source) : Shape := ⟨source, .empty, [], none, 0, none⟩

/-- The name that rows of the source go by: the label if there is one, else the table name. -/
def reference (s : Shape) : String := s.label.getD s.source.name

/-- A limit or offset is set. -/
def isBounded (s : Shape) : Bool := s.limit.isSome || 0 < s.offset

end Shape

namespace Selection

/-- The shape of a selection. -/
def shape : Selection → Shape
  | .undecided s => s
  | .read r => r.shape
  | .update u => u.shape
  | .delete d => d.shape

/-- The selection with its shape changed. -/
def mapShape (f : Shape → Shape) : Selection → Selection
  | .undecided s => .undecided (f s)
  | .read r => .read { r with shape := f r.shape }
  | .update u => .update { u with shape := f u.shape }
  | .delete d => .delete { d with shape := f d.shape }

end Selection

end RecordQuery
