import RecordQuery.Archive.Encode
set_option autoImplicit false

/-!
# Archive: reading

The JSON forms are read back.  A structure may also be given as a list of its parts in order; unknown members
are ignored; a missing optional member is null.  An alternative that carries nothing may carry null.
-/

namespace RecordQuery.Archive

/-! ## Parts -/

/-- The parts of a structure by name, and whether they came as a list: then every part must be there. -/
structure Parts where
  entries : List (String × Json)
  listed : Bool
  deriving Inhabited

namespace Parts

/-- The parts of a structure with these names. -/
def of? (names : List String) : Json → Option Parts
  | .object members => some ⟨members, false⟩
  | .array items => if items.length ≤ names.length then some ⟨names.zip items, true⟩ else none
  | _ => none

/-- The parts that an alternative carries. -/
def ofContent? : Option Json → Option Parts
  | some (.object members) => some ⟨members, false⟩
  | _ => none

/-- A part that must be there. -/
def required {α : Type} (p : Parts) (name : String) (decode : Json → Option α) : Option α :=
  (Entries.find? p.entries name).bind decode

/-- A part that has a default. -/
def defaulted {α : Type} (p : Parts) (name : String) (default : α) (decode : Json → Option α) : Option α :=
  match Entries.find? p.entries name with
  | some json => decode json
  | none => some default

/-- A part that may be null or missing. -/
def lenient {α : Type} (p : Parts) (name : String) (decode : Json → Option α) : Option (Option α) :=
  match Entries.find? p.entries name with
  | some .null => some none
  | some json => (decode json).map some
  | none => some none

/-- A part that may be null or, by name, missing. -/
def nullable {α : Type} (p : Parts) (name : String) (decode : Json → Option α) : Option (Option α) :=
  match Entries.find? p.entries name with
  | some .null => some none
  | some json => (decode json).map some
  | none => if p.listed then none else some none

end Parts

/-- The tag of an alternative and what it carries. -/
def tagged? : Json → Option (String × Option Json)
  | .string tag => some (tag, none)
  | .object [(tag, content)] => some (tag, some content)
  | _ => none

/-- An alternative that carries nothing. -/
def carriesNothing : Option Json → Bool
  | none => true
  | some .null => true
  | _ => false

/-! ## Plain parts -/

/-- A text. -/
def string? : Json → Option String
  | .string s => some s
  | _ => none

/-- A truth value. -/
def bool? : Json → Option Bool
  | .bool b => some b
  | _ => none

/-- A natural number of at most 64 bits. -/
def nat? : Json → Option Nat
  | .integer n => if 0 ≤ n ∧ n < Text.wordLimit then some n.toNat else none
  | _ => none

/-- A signed 64-bit integer. -/
def int64? : Json → Option Int64
  | .integer n => Text.toInt64? n
  | _ => none

/-- A float; an integer is one too. -/
def float? : Json → Option Binary64
  | .float x => some x
  | .integer n => some (Binary64.ofInt n)
  | _ => none

/-- A byte. -/
def byte? : Json → Option UInt8
  | .integer n => if 0 ≤ n ∧ n < 256 then some (UInt8.ofNat n.toNat) else none
  | _ => none

/-- A list of items. -/
def list? {α : Type} (decode : Json → Option α) : Json → Option (List α)
  | .array items => items.mapM decode
  | _ => none

/-- A name and something else. -/
def pair? {α : Type} (decode : Json → Option α) : Json → Option (String × α)
  | .array [name, content] => do return (← string? name, ← decode content)
  | _ => none

/-- An alternative without content among named ones. -/
def oneOf? {α : Type} (names : List (String × α)) (json : Json) : Option α := do
  let (tag, content) ← tagged? json
  if carriesNothing content then Entries.find? names tag else none

/-! ## Types and values -/

/-- A width of integers. -/
def width? : Json → Option IntWidth :=
  oneOf? [("Tiny", .tiny), ("Small", .small), ("Normal", .normal), ("Big", .big)]

/-- An enumeration. -/
def enum? (json : Json) : Option EnumType := do
  let p ← Parts.of? ["name", "variants"] json
  return ⟨← p.required "name" string?, ← p.required "variants" (list? string?)⟩

/-- The types whose form carries nothing. -/
def plainTypes : List (String × DataType) :=
  [("Boolean", .boolean), ("Float", .float), ("Date", .date), ("DateTime", .dateTime),
    ("Binary", .binary), ("Object", .object)]

/-- A type. -/
def type? (json : Json) : Option DataType := do
  let (tag, content) ← tagged? json
  match tag with
  | "Integer" =>
    let p ← Parts.ofContent? content
    return .integer (← p.required "signed" bool?) (← p.required "width" width?)
      (← p.required "serial" bool?)
  | "String" => return .string (← (← Parts.ofContent? content).nullable "max_length" nat?)
  | "Text" => return .text (← (← Parts.ofContent? content).required "nullable" bool?)
  | "Enum" => return .enumeration (← enum? (← content))
  | _ => if carriesNothing content then Entries.find? plainTypes tag else none

/-- A date. -/
def date? (json : Json) : Option Date := do
  Calendar.readDate Calendar.looseDayPattern (← string? json).toList

/-- A moment. -/
def dateTime? (json : Json) : Option DateTime := do
  Calendar.readDateTime Calendar.looseDateTimePattern (← string? json).toList

/-- A value that is neither a list nor a record. -/
def plainValue? (tag : String) (content : Option Json) : Option Value :=
  match tag with
  | "Null" => if carriesNothing content then some .null else none
  | "Bool" => do return .bool (← bool? (← content))
  | "Int" => do return .int (← int64? (← content))
  | "Float" => do return .float (← float? (← content))
  | "String" => do return .string (← string? (← content))
  | "Bytes" => do return .bytes (← list? byte? (← content))
  | "Date" => do return .date (← date? (← content))
  | "DateTime" => do return .dateTime (← dateTime? (← content))
  | _ => none

mutual

/-- A value. -/
def value? : Json → Option Value
  | .object [("Array", .array items)] => (values? items).map .array
  | .object [("Object", .object members)] => (entries? members).map .object
  | .object [(tag, content)] => plainValue? tag (some content)
  | .string tag => plainValue? tag none
  | _ => none
termination_by structural json => json

/-- Some values. -/
def values? : List Json → Option (List Value)
  | [] => some []
  | json :: rest => do return (← value? json) :: (← values? rest)
termination_by structural items => items

/-- Some named values. -/
def entries? : List (String × Json) → Option (List (String × Value))
  | [] => some []
  | (k, json) :: rest => do return (k, ← value? json) :: (← entries? rest)
termination_by structural members => members

end

/-! ## Expressions -/

/-- All operators by name. -/
def operators : List (String × Operator) :=
  ([.or, .and, .not, .eq, .ne, .lt, .gt, .le, .ge, .notLt, .notGt, .is, .isNot, .like, .isIn] :
    List Operator).map fun op => (operatorName op, op)

/-- An operator. -/
def operator? : Json → Option Operator := oneOf? operators

/-- A list of values. -/
def valueList? : Json → Option (List Value) := list? value?

/-- A field reference. -/
def fieldRef? (p : Parts) : Option FieldRef := do
  return ⟨← p.required "field" string?, ← p.required "quoted" bool?, ← p.nullable "model" string?,
    ← p.required "model_quoted" bool?⟩

/-- An expression that nests at most `fuel` deep. -/
def exprWithin : Nat → Json → Option Expr
  | 0, _ => none
  | fuel + 1, json => do
    let (tag, content) ← tagged? json
    let p ← Parts.ofContent? content
    match tag with
    | "Literal" => return .literal (← p.required "data_type" type?) (← p.required "value" value?)
    | "FieldAccess" => return .field (← fieldRef? p)
    | "Infix" =>
      return .binary (← p.required "left" (exprWithin fuel)) (← p.required "op" operator?)
        (← p.required "right" (exprWithin fuel))
    | "Prefix" => return .unary (← p.required "op" operator?) (← p.required "operand" (exprWithin fuel))
    | "ArrayLiteral" => return .list (← p.required "data_type" type?) (← p.required "values" valueList?)
    | _ => none

mutual

/-- How deep a document nests. -/
def nesting : Json → Nat
  | .array items => nestingItems items + 1
  | .object members => nestingMembers members + 1
  | .null => 1
  | .bool _ => 1
  | .integer _ => 1
  | .float _ => 1
  | .string _ => 1
termination_by structural json => json

/-- How deep some documents nest. -/
def nestingItems : List Json → Nat
  | [] => 0
  | json :: rest => max (nesting json) (nestingItems rest)
termination_by structural items => items

/-- How deep some members nest. -/
def nestingMembers : List (String × Json) → Nat
  | [] => 0
  | (_, json) :: rest => max (nesting json) (nestingMembers rest)
termination_by structural members => members

end

/-- An expression. -/
def expr? (json : Json) : Option Expr := exprWithin (nesting json) json

/-- A placeholder format with its values. -/
def text? (content : Option Json) : Option (String × List Value) := do
  let p ← Parts.ofContent? content
  return (← p.required "format" string?, ← p.required "args" valueList?)

/-! ## Predicates -/

/-- A glue. -/
def glue? : Json → Option Glue := oneOf? [("And", .and), ("Or", .or)]

/-- A condition that nests at most `fuel` deep. -/
def conditionWithin : Nat → Json → Option Condition
  | 0, _ => none
  | fuel + 1, json => do
    let (tag, content) ← tagged? json
    match tag with
    | "Expr" => return .expr (← expr? (← content))
    | "Sql" =>
      let (format, args) ← text? content
      return .text format args
    | "Group" =>
      let p ← Parts.of? ["clauses", "negated"] (← content)
      let clauses ← p.required "clauses" (list? fun clause => do
        let q ← Parts.of? ["glue", "body"] clause
        return (← q.required "glue" glue?, ← q.required "body" (conditionWithin fuel)))
      return .group clauses (← p.defaulted "negated" false bool?)
    | _ => none

/-- A clause. -/
def clause? (json : Json) : Option Clause := do
  let p ← Parts.of? ["glue", "body"] json
  return (← p.required "glue" glue?, ← p.required "body" fun body => conditionWithin (nesting body) body)

/-- A predicate. -/
def predicate? (json : Json) : Option Predicate := do
  let p ← Parts.of? ["clauses", "negated"] json
  return ⟨← p.required "clauses" (list? clause?), ← p.defaulted "negated" false bool?⟩

/-! ## Selections -/

/-- A fragment. -/
def fragment? (json : Json) : Option Fragment := do
  let (tag, content) ← tagged? json
  match tag with
  | "Expr" => return .expr (← expr? (← content))
  | "Sql" =>
    let (format, args) ← text? content
    return .text format args
  | _ => none

/-- A model. -/
def model? (json : Json) : Option Model := do
  let p ← Parts.of? ["name", "fields", "primary_key"] json
  return ⟨← p.required "name" string?, ← p.required "fields" (list? (pair? type?)),
    ← p.lenient "primary_key" string?⟩

/-- A source. -/
def source? (json : Json) : Option Source := do
  let p ← Parts.of? ["backend", "model"] json
  return ⟨← p.required "backend" nat?, ← p.required "model" model?⟩

/-- An ordering term. -/
def orderTerm? (json : Json) : Option OrderTerm := do
  let p ← Parts.of? ["expr", "descending"] json
  return ⟨← p.required "expr" expr?, ← p.required "descending" bool?⟩

/-- A shape. -/
def shape? (json : Json) : Option Shape := do
  let p ← Parts.of? ["source", "predicate", "ordering", "limit", "offset", "alias"] json
  return {
    source := ← p.required "source" source?
    predicate := ← p.required "predicate" predicate?
    ordering := ← p.required "ordering" (list? orderTerm?)
    limit := ← p.nullable "limit" nat?
    offset := ← p.required "offset" nat?
    label := ← p.nullable "alias" string? }

/-- A selected column. -/
def projection? (json : Json) : Option Projection := do
  let p ← Parts.of? ["fragment", "alias"] json
  return ⟨← p.required "fragment" fragment?, ← p.nullable "alias" string?⟩

/-- An additional field. -/
def extraField? (json : Json) : Option ExtraField := do
  let p ← Parts.of? ["alias", "fragment", "data_type", "record"] json
  return ⟨← p.required "alias" string?, ← p.nullable "fragment" fragment?,
    ← p.nullable "data_type" type?, ← p.nullable "record" model?⟩

/-- An extra source. -/
def extraSource? (json : Json) : Option ExtraSource := do
  let p ← Parts.of? ["source", "alias"] json
  return ⟨← p.required "source" source?, ← p.required "alias" string?⟩

/-- A kind of join. -/
def joinKind? : Json → Option JoinKind := oneOf? [("Inner", .inner), ("Left", .left), ("Right", .right)]

/-- A join. -/
def join? (json : Json) : Option Join := do
  let p ← Parts.of? ["source", "kind", "alias", "on"] json
  return ⟨← p.required "source" source?, ← p.required "kind" joinKind?, ← p.required "alias" string?,
    ← p.required "on" predicate?⟩

/-- A grouping. -/
def grouping? (json : Json) : Option Grouping := do
  let p ← Parts.of? ["columns", "having"] json
  return ⟨← p.required "columns" (list? expr?), ← p.required "having" predicate?⟩

/-- A read. -/
def read? (json : Json) : Option ReadSelection := do
  let p ← Parts.of?
    ["shape", "projection", "additional", "extra_sources", "joins", "grouping", "distinct"] json
  return {
    shape := ← p.required "shape" shape?
    projection := ← p.required "projection" (list? projection?)
    additional := ← p.required "additional" (list? extraField?)
    extraSources := ← p.required "extra_sources" (list? extraSource?)
    joins := ← p.required "joins" (list? join?)
    grouping := ← p.nullable "grouping" grouping?
    distinct := ← p.required "distinct" bool? }

/-- What a field is set to. -/
def assigned? (json : Json) : Option Assigned := do
  let (tag, content) ← tagged? json
  match tag with
  | "Value" => return .value (← value? (← content))
  | "Raw" => return .computed (← fragment? (← content))
  | _ => none

/-- An update. -/
def update? (json : Json) : Option UpdateSelection := do
  let p ← Parts.of? ["shape", "sets"] json
  return ⟨← p.required "shape" shape?, ← p.required "sets" (list? (pair? assigned?))⟩

/-- A delete. -/
def delete? (json : Json) : Option DeleteSelection := do
  let p ← Parts.of? ["shape"] json
  return ⟨← p.required "shape" shape?⟩

/-- A selection that is not decided. -/
def undecided? (json : Json) : Option Shape := do
  (← Parts.of? ["shape"] json).required "shape" shape?

end RecordQuery.Archive
