import RecordQuery.Selection.Basic
set_option autoImplicit false

/-!
# Archive: writing

Values, types, expressions, predicates and selections have a JSON form.  A structure is an object with one
member for each of its parts, in a fixed order; an alternative is an object with its tag as the only member,
or the tag alone when it carries nothing.
-/

namespace RecordQuery.Archive

/-- An alternative that carries something. -/
def tagged (tag : String) (content : Json) : Json := .object [(tag, content)]

/-- Something, or null. -/
def optional {α : Type} (encode : α → Json) : Option α → Json
  | some a => encode a
  | none => .null

/-- A list of encoded items. -/
def listOf {α : Type} (encode : α → Json) (items : List α) : Json := .array (items.map encode)

/-- A natural number. -/
def ofNat (n : Nat) : Json := .integer n

/-! ## Types and values -/

/-- The name of an integer width. -/
def widthName : IntWidth → String
  | .tiny => "Tiny"
  | .small => "Small"
  | .normal => "Normal"
  | .big => "Big"

/-- The form of an enumeration. -/
def ofEnum (e : EnumType) : Json := .object [("name", .string e.name), ("variants", listOf .string e.variants)]

/-- The form of a type. -/
def ofType : DataType → Json
  | .boolean => .string "Boolean"
  | .integer signed width serial =>
    tagged "Integer" (.object
      [("signed", .bool signed), ("width", .string (widthName width)), ("serial", .bool serial)])
  | .float => .string "Float"
  | .string limit => tagged "String" (.object [("max_length", optional ofNat limit)])
  | .text nullable => tagged "Text" (.object [("nullable", .bool nullable)])
  | .date => .string "Date"
  | .dateTime => .string "DateTime"
  | .binary => .string "Binary"
  | .object => .string "Object"
  | .enumeration e => tagged "Enum" (ofEnum e)

mutual

/-- The form of a value. -/
def ofValue : Value → Json
  | .null => .string "Null"
  | .bool b => tagged "Bool" (.bool b)
  | .int n => tagged "Int" (.integer n.toInt)
  | .float x => tagged "Float" (if x.isFinite then .float x else .null)
  | .string s => tagged "String" (.string s)
  | .bytes bs => tagged "Bytes" (.array (bs.map fun b => .integer b.toNat))
  | .date d => tagged "Date" (.string d.text)
  | .dateTime t => tagged "DateTime" (.string t.isoText)
  | .array items => tagged "Array" (.array (ofValues items))
  | .object entries => tagged "Object" (.object (ofEntries entries))
termination_by structural v => v

/-- The forms of some values. -/
def ofValues : List Value → List Json
  | [] => []
  | v :: vs => ofValue v :: ofValues vs
termination_by structural vs => vs

/-- The forms of some named values. -/
def ofEntries : List (String × Value) → List (String × Json)
  | [] => []
  | (k, v) :: es => (k, ofValue v) :: ofEntries es
termination_by structural es => es

end

/-! ## Expressions -/

/-- The name of an operator. -/
def operatorName : Operator → String
  | .or => "Or"
  | .and => "And"
  | .not => "Not"
  | .eq => "Eq"
  | .ne => "Ne"
  | .lt => "Lt"
  | .gt => "Gt"
  | .le => "Lte"
  | .ge => "Gte"
  | .notLt => "NotLt"
  | .notGt => "NotGt"
  | .is => "Is"
  | .isNot => "IsNot"
  | .like => "Like"
  | .isIn => "In"

/-- The form of a field reference. -/
def ofFieldRef (ref : FieldRef) : Json :=
  .object [("field", .string ref.field), ("quoted", .bool ref.quoted),
    ("model", optional .string ref.model), ("model_quoted", .bool ref.modelQuoted)]

/-- The form of an expression. -/
def ofExpr : Expr → Json
  | .literal type value =>
    tagged "Literal" (.object [("data_type", ofType type), ("value", ofValue value)])
  | .field ref => tagged "FieldAccess" (ofFieldRef ref)
  | .binary left op right =>
    tagged "Infix" (.object
      [("left", ofExpr left), ("op", .string (operatorName op)), ("right", ofExpr right)])
  | .unary op operand =>
    tagged "Prefix" (.object [("op", .string (operatorName op)), ("operand", ofExpr operand)])
  | .list type values =>
    tagged "ArrayLiteral" (.object [("data_type", ofType type), ("values", .array (ofValues values))])

/-- The form of a placeholder format with its values. -/
def ofText (format : String) (args : List Value) : Json :=
  tagged "Sql" (.object [("format", .string format), ("args", .array (ofValues args))])

/-! ## Predicates -/

/-- The name of a glue. -/
def glueName : Glue → String
  | .and => "And"
  | .or => "Or"

mutual

/-- The form of a condition. -/
def ofCondition : Condition → Json
  | .expr e => tagged "Expr" (ofExpr e)
  | .text format args => ofText format args
  | .group clauses negated =>
    tagged "Group" (.object [("clauses", .array (ofClauses clauses)), ("negated", .bool negated)])
termination_by structural c => c

/-- The forms of some clauses. -/
def ofClauses : List (Glue × Condition) → List Json
  | [] => []
  | (glue, c) :: rest =>
    .object [("glue", .string (glueName glue)), ("body", ofCondition c)] :: ofClauses rest
termination_by structural cs => cs

end

/-- The form of a predicate. -/
def ofPredicate (p : Predicate) : Json :=
  .object [("clauses", .array (ofClauses p.clauses)), ("negated", .bool p.negated)]

/-! ## Selections -/

/-- The form of a fragment. -/
def ofFragment : Fragment → Json
  | .expr e => tagged "Expr" (ofExpr e)
  | .text format args => ofText format args

/-- The form of a declared field. -/
def ofField (f : String × DataType) : Json := .array [.string f.1, ofType f.2]

/-- The form of a model. -/
def ofModel (m : Model) : Json :=
  .object [("name", .string m.name), ("fields", listOf ofField m.fields),
    ("primary_key", optional .string m.primaryKey)]

/-- The form of a source. -/
def ofSource (s : Source) : Json := .object [("backend", ofNat s.backend), ("model", ofModel s.model)]

/-- The form of an ordering term. -/
def ofOrderTerm (t : OrderTerm) : Json :=
  .object [("expr", ofExpr t.expr), ("descending", .bool t.descending)]

/-- The form of a shape. -/
def ofShape (s : Shape) : Json :=
  .object [("source", ofSource s.source), ("predicate", ofPredicate s.predicate),
    ("ordering", listOf ofOrderTerm s.ordering), ("limit", optional ofNat s.limit),
    ("offset", ofNat s.offset), ("alias", optional .string s.label)]

/-- The form of a selected column. -/
def ofProjection (p : Projection) : Json :=
  .object [("fragment", ofFragment p.fragment), ("alias", optional .string p.label)]

/-- The form of an additional field. -/
def ofExtraField (f : ExtraField) : Json :=
  .object [("alias", .string f.label), ("fragment", optional ofFragment f.fragment),
    ("data_type", optional ofType f.type), ("record", optional ofModel f.record)]

/-- The form of an extra source. -/
def ofExtraSource (e : ExtraSource) : Json :=
  .object [("source", ofSource e.source), ("alias", .string e.label)]

/-- The name of a kind of join. -/
def joinName : JoinKind → String
  | .inner => "Inner"
  | .left => "Left"
  | .right => "Right"

/-- The form of a join. -/
def ofJoin (j : Join) : Json :=
  .object [("source", ofSource j.source), ("kind", .string (joinName j.kind)),
    ("alias", .string j.label), ("on", ofPredicate j.condition)]

/-- The form of a grouping. -/
def ofGrouping (g : Grouping) : Json :=
  .object [("columns", listOf ofExpr g.columns), ("having", ofPredicate g.having)]

/-- The form of a read. -/
def ofRead (r : ReadSelection) : Json :=
  .object [("shape", ofShape r.shape), ("projection", listOf ofProjection r.projection),
    ("additional", listOf ofExtraField r.additional),
    ("extra_sources", listOf ofExtraSource r.extraSources), ("joins", listOf ofJoin r.joins),
    ("grouping", optional ofGrouping r.grouping), ("distinct", .bool r.distinct)]

/-- The form of what a field is set to. -/
def ofAssigned : Assigned → Json
  | .value v => tagged "Value" (ofValue v)
  | .computed fragment => tagged "Raw" (ofFragment fragment)

/-- The form of an assignment. -/
def ofSet (set : String × Assigned) : Json := .array [.string set.1, ofAssigned set.2]

/-- The form of an update. -/
def ofUpdate (u : UpdateSelection) : Json :=
  .object [("shape", ofShape u.shape), ("sets", listOf ofSet u.sets)]

/-- The form of a delete. -/
def ofDelete (d : DeleteSelection) : Json := .object [("shape", ofShape d.shape)]

/-- The form of a selection of any kind. -/
def ofSelection : Selection → Json
  | .undecided shape => .object [("shape", ofShape shape)]
  | .read r => ofRead r
  | .update u => ofUpdate u
  | .delete d => ofDelete d

end RecordQuery.Archive
