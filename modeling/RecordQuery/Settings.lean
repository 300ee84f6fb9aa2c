import RecordQuery.Toml.Reader
import RecordQuery.Fault
set_option autoImplicit false

/-!
# Settings: database and matching of columns

Settings are read from a TOML document with a `database` section, which may hold a connection URL and a
dialect, and a `query` section, which may say that result columns are matched to fields whatever the case
of their letters.  Other keys are ignored; anything malformed refuses the whole document.
-/

namespace RecordQuery

/-- The dialect that a name or alias chooses, in any case of its ASCII letters. -/
def Dialect.ofText (s : String) : Outcome Dialect :=
  match Dialect.ofAlias? (Text.asciiLower s) with
  | some d => .ok d
  | none => .error (.settings (.unknownDialect (Text.asciiLower s)))

/-- What is configured. -/
structure Settings where
  url : Option String
  configuredDialect : Option Dialect
  /-- match result columns to fields up to the case of ASCII letters -/
  ignoreCase : Bool
  deriving DecidableEq, Repr, Inhabited

namespace Settings

/-- Nothing is configured. -/
def empty : Settings := ⟨none, none, false⟩

/-- The dialect to write statements in: the configured one, else the one that the URL tells, else that of
PostgreSQL. -/
def dialect (s : Settings) : Dialect :=
  (s.configuredDialect.or (s.url.bind Dialect.ofUrl?)).getD .postgres

/-! ## Reading -/

/-- The parts of a section: a table by name, or a list in the order of the names.  A moment is a section
without parts. -/
def parts? (names : List String) : Toml → Option (List (String × Toml))
  | .table _ es => some es
  | .inlineTable es => some es
  | .array items => some (names.zip items)
  | .tables items => some (names.zip (items.map (.table .opened)))
  | .moment _ => some []
  | _ => none

/-- A section that is a list must hold all parts that have no default. -/
def isListed : Toml → Bool
  | .array _ => true
  | .tables _ => true
  | _ => false

/-- A part that may be missing from a section, unless that is a list. -/
def part? {α : Type} (whole : Toml) (parts : List (String × Toml)) (name : String)
    (read : Toml → Option α) : Option (Option α) :=
  match Entries.find? parts name with
  | some value => (read value).map some
  | none => if isListed whole then none else some none

/-- A text. -/
def string? : Toml → Option String
  | .string s => some s
  | _ => none

/-- A truth value. -/
def boolean? : Toml → Option Bool
  | .boolean b => some b
  | _ => none

/-- A table or list without entries. -/
def isVoid : Toml → Bool
  | .table _ es => es.isEmpty
  | .inlineTable es => es.isEmpty
  | .array items => items.isEmpty
  | _ => false

/-- A dialect: its name, or a table that holds nothing but that name with nothing in it. -/
def dialect? : Toml → Option Dialect
  | .string s => Dialect.ofName? s
  | .table _ [(name, content)] => if isVoid content then Dialect.ofName? name else none
  | .inlineTable [(name, content)] => if isVoid content then Dialect.ofName? name else none
  | _ => none

/-- The URL and dialect of the `database` section. -/
def database? (value : Toml) : Option (Option String × Option Dialect) := do
  let parts ← parts? ["url", "dialect"] value
  return (← part? value parts "url" string?, ← part? value parts "dialect" dialect?)

/-- The choice of the `query` section. -/
def query? (value : Toml) : Option Bool := do
  let parts ← parts? ["case_insensitive_fields"] value
  match Entries.find? parts "case_insensitive_fields" with
  | some choice => boolean? choice
  | none => some false

/-- The settings of a document. -/
def ofToml? (document : Entries Toml) : Option Settings := do
  let (url, dialect) ← match Entries.find? document "database" with
    | some value => database? value
    | none => some (none, none)
  let ignoreCase ← match Entries.find? document "query" with
    | some value => query? value
    | none => some false
  return ⟨url, dialect, ignoreCase⟩

/-- The settings that a text spells. -/
def read (text : String) : Outcome Settings :=
  match (Toml.read? text).bind ofToml? with
  | some s => .ok s
  | none => .error (.settings .malformed)

/-- The settings of the file with this name and text, if there is one; a URL of the environment wins over
that of the file. -/
def load (file : Option (String × String)) (environmentUrl : Option String) : Outcome Settings := do
  let s ← match file with
    | none => pure empty
    | some (name, text) =>
      match (Toml.read? text).bind ofToml? with
      | some s => pure s
      | none => .error (.settings (.malformedFile name))
  return { s with url := environmentUrl.or s.url }

end Settings

end RecordQuery
