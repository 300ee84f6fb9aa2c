import RecordQuery.Entries
import RecordQuery.Numeric.Binary64
set_option autoImplicit false

/-!
# Toml: documents of tables

A document is a table of keys.  How a table came to be decides what may be added to it later: a header opens
a table once, and a dotted key only adds to tables that dotted keys began.
-/

namespace RecordQuery

/-- How a table came to be. -/
inductive TableOrigin where
  /-- opened by a header -/
  | opened
  /-- named on the way to the table of a header -/
  | passed
  /-- named on the way of a dotted key -/
  | dotted
  deriving DecidableEq, Repr, Inhabited

/-- What a key holds. -/
inductive Toml where
  | string (s : String)
  | boolean (b : Bool)
  | integer (n : Int64)
  | float (x : Binary64)
  /-- a date, a time of day or both -/
  | moment (text : String)
  | array (items : List Toml)
  /-- a table that is written as a value -/
  | inlineTable (entries : List (String × Toml))
  | table (origin : TableOrigin) (entries : List (String × Toml))
  /-- the tables that headers in double brackets opened -/
  | tables (items : List (List (String × Toml)))
  deriving Inhabited

namespace Toml

/-! ## Adding to tables -/

/-- Change what a key holds; `change` is given nothing for a new key. -/
def modify (es : Entries Toml) (key : String) (change : Option Toml → Option Toml) : Option (Entries Toml) :=
  (change (Entries.find? es key)).map (Entries.insert es key)

/-- Change the last item of a list. -/
def modifyLast {α : Type} (change : α → Option α) : List α → Option (List α)
  | [] => none
  | [x] => (change x).map fun y => [y]
  | x :: rest => (modifyLast change rest).map (x :: ·)

/-- Give a dotted key a value.  The key must be new and its table must not be opened elsewhere. -/
def assign (value : Toml) : List String → Entries Toml → Option (Entries Toml)
  | [], _ => none
  | [key], es =>
    modify es key fun
      | none => some value
      | some _ => none
  | key :: path, es =>
    modify es key fun
      | none => (assign value path []).map (.table .dotted)
      | some (.table .dotted inner) => (assign value path inner).map (.table .dotted)
      | some (.table .passed inner) =>
        if path.length = 1 then none else (assign value path inner).map (.table .passed)
      | some (.tables items) =>
        if path.length = 1 then none else (modifyLast (assign value path) items).map .tables
      | some _ => none

/-- Give several dotted keys their values. -/
def assignAll (assignments : List (List String × Toml)) (es : Entries Toml) : Option (Entries Toml) :=
  assignments.foldlM (fun es a => assign a.2 a.1 es) es

/-- Change what the key at the end of a header's path holds. -/
def atHeader (change : Option Toml → Option Toml) : List String → Entries Toml → Option (Entries Toml)
  | [], _ => none
  | [key], es => modify es key change
  | key :: path, es =>
    modify es key fun
      | none => (atHeader change path []).map (.table .passed)
      | some (.table origin inner) => (atHeader change path inner).map (.table origin)
      | some (.tables items) => (modifyLast (atHeader change path) items).map .tables
      | some _ => none

/-- Open a table: it must be new, or have been passed only. -/
def openTable (assignments : List (List String × Toml)) : Option Toml → Option Toml
  | none => (assignAll assignments []).map (.table .opened)
  | some (.table .passed inner) => (assignAll assignments inner).map (.table .opened)
  | some _ => none

/-- Open one more table of a list of tables. -/
def addTable (assignments : List (List String × Toml)) : Option Toml → Option Toml
  | none => (assignAll assignments []).map fun es => .tables [es]
  | some (.tables items) => (assignAll assignments []).map fun es => .tables (items ++ [es])
  | some _ => none

/-! ## Statements -/

/-- A line of a document. -/
inductive Statement where
  | assignment (path : List String) (value : Toml)
  | header (path : List String)
  /-- a header in double brackets -/
  | itemHeader (path : List String)
  deriving Inhabited

/-- What a header opens, with the assignments under it. -/
structure Section where
  path : List String
  isItem : Bool
  assignments : List (List String × Toml)
  deriving Inhabited

/-- The assignments before the first header, and the sections. -/
def sections : List Statement → List (List String × Toml) × List Section
  | [] => ([], [])
  | .assignment path value :: rest => ((path, value) :: (sections rest).1, (sections rest).2)
  | .header path :: rest => ([], ⟨path, false, (sections rest).1⟩ :: (sections rest).2)
  | .itemHeader path :: rest => ([], ⟨path, true, (sections rest).1⟩ :: (sections rest).2)

/-- Add a section to a document. -/
def addSection (es : Entries Toml) (s : Section) : Option (Entries Toml) :=
  atHeader (if s.isItem then addTable s.assignments else openTable s.assignments) s.path es

/-- The table that a list of statements describes. -/
def ofStatements? (statements : List Statement) : Option (Entries Toml) := do
  let (assignments, rest) := sections statements
  rest.foldlM addSection (← assignAll assignments [])

end Toml

end RecordQuery
