import RecordQuery.Value.Basic
import RecordQuery.Calendar.Pattern
import RecordQuery.Json.Basic
set_option autoImplicit false

/-!
# Value: as a JSON document

Objects are stored and shown as JSON.  Bytes become a list of numbers, dates become text, and a float that
is not finite becomes null.
-/

namespace RecordQuery

/-- The text of a date: year, month and day between hyphens. -/
def Date.text (d : Date) : String := Calendar.writeDate Calendar.dayPattern d

/-- The text of a moment: the date, a space and the clock time without a fraction. -/
def DateTime.text (t : DateTime) : String := Calendar.writeDateTime Calendar.spacedPattern t

/-- The text of a moment: the date, the letter T and the clock time with its fraction. -/
def DateTime.isoText (t : DateTime) : String :=
  Calendar.writeDateTime Calendar.joinedFractionPattern t

namespace Value

mutual

/-- The JSON document of a value. -/
def toJson : Value → Json
  | .null => .null
  | .bool b => .bool b
  | .int n => .integer n.toInt
  | .float x => if x.isFinite then .float x else .null
  | .string s => .string s
  | .bytes bs => .array (bs.map fun b => .integer b.toNat)
  | .date d => .string d.text
  | .dateTime t => .string t.text
  | .array items => .array (itemsToJson items)
  | .object entries => .object (entriesToJson entries)
termination_by structural v => v

/-- The JSON documents of some values. -/
def itemsToJson : List Value → List Json
  | [] => []
  | v :: vs => v.toJson :: itemsToJson vs
termination_by structural vs => vs

/-- The JSON members of some named values. -/
def entriesToJson : List (String × Value) → List (String × Json)
  | [] => []
  | (k, v) :: es => (k, v.toJson) :: entriesToJson es
termination_by structural es => es

end

/-- An integer of a document: a 64-bit integer if it fits, else the nearest float. -/
def ofInteger (n : Int) : Value :=
  match Text.toInt64? n with
  | some n => .int n
  | none => .float (Binary64.ofInt n)

mutual

/-- The value of a JSON document. -/
def ofJson : Json → Value
  | .null => .null
  | .bool b => .bool b
  | .integer n => ofInteger n
  | .float x => .float x
  | .string s => .string s
  | .array items => .array (itemsOfJson items)
  | .object members => .object (entriesOfJson members)
termination_by structural json => json

/-- The values of some JSON documents. -/
def itemsOfJson : List Json → List Value
  | [] => []
  | j :: js => ofJson j :: itemsOfJson js
termination_by structural js => js

/-- The named values of some JSON members. -/
def entriesOfJson : List (String × Json) → List (String × Value)
  | [] => []
  | (k, j) :: ms => (k, ofJson j) :: entriesOfJson ms
termination_by structural ms => ms

end

end Value

end RecordQuery
