import RecordQuery.Value.Json
import RecordQuery.Json.Printer
import RecordQuery.Text.Quoted
set_option autoImplicit false

/-!
# Value: as text

`describe` is the text that messages and pattern matching see.  `inspect` shows kind and content, for
messages about a value that does not fit its type.
-/

namespace RecordQuery

/-- Floats in running text: positional whatever their size, whole numbers without a point. -/
def Layout.plain : Layout :=
  { tie := .away, low := none, high := none, pointZero := false, plusSign := false, nan := "NaN",
    infinity := "inf", negativeInfinity := "-inf" }

/-- Floats shown exactly: positional from `10 ^ -4` to `10 ^ 16`, with at least one fraction digit. -/
def Layout.exact : Layout :=
  { tie := .away, low := some (-3), high := some 16, pointZero := true, plusSign := false, nan := "NaN",
    infinity := "inf", negativeInfinity := "-inf" }

namespace Value

/-- Texts between brackets, separated by a comma and a space. -/
def bracketed (parts : List String) : String := "[" ++ Text.joined ", " parts ++ "]"

mutual

/-- The text of a value. -/
def describe : Value → String
  | .null => "NULL"
  | .bool b => if b then "true" else "false"
  | .int n => toString n.toInt
  | .float x => x.render .plain
  | .string s => s
  | .bytes bs => Text.hex bs
  | .date d => d.text
  | .dateTime t => t.text
  | .array items => bracketed (describeItems items)
  | .object entries => (toJson (.object entries)).compactText
termination_by structural v => v

/-- The texts of some values. -/
def describeItems : List Value → List String
  | [] => []
  | v :: vs => v.describe :: describeItems vs
termination_by structural vs => vs

end

/-- The text that patterns match: nothing for null. -/
def matchText : Value → String
  | .null => ""
  | v => v.describe

mutual

/-- Kind and content of a value. -/
def inspect : Value → String
  | .null => "Null"
  | .bool b => "Bool(" ++ (if b then "true" else "false") ++ ")"
  | .int n => "Int(" ++ toString n.toInt ++ ")"
  | .float x => "Float(" ++ x.render .exact ++ ")"
  | .string s => "String(" ++ Text.quoted s ++ ")"
  | .bytes bs => "Bytes(" ++ bracketed (bs.map fun b => toString b.toNat) ++ ")"
  | .date d => "Date(" ++ d.text ++ ")"
  | .dateTime t => "DateTime(" ++ t.isoText ++ ")"
  | .array items => "Array(" ++ bracketed (inspectItems items) ++ ")"
  | .object entries => "Object(\x7b" ++ Text.joined ", " (inspectEntries entries) ++ "\x7d)"
termination_by structural v => v

/-- Kind and content of some values. -/
def inspectItems : List Value → List String
  | [] => []
  | v :: vs => v.inspect :: inspectItems vs
termination_by structural vs => vs

/-- Names with the kind and content of their values. -/
def inspectEntries : List (String × Value) → List String
  | [] => []
  | (k, v) :: es => (Text.quoted k ++ ": " ++ v.inspect) :: inspectEntries es
termination_by structural es => es

end

end Value

end RecordQuery
