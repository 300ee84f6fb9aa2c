import RecordQuery.Entries
import RecordQuery.Numeric.Binary64
import RecordQuery.Calendar.Date
set_option autoImplicit false

/-!
# Value: what a field holds

A value is what a placeholder binds, a record stores and an expression yields.  Integers are 64-bit words;
an object is a nested record.
-/

namespace RecordQuery

/-- A value of a field. -/
inductive Value where
  | null
  | bool (b : Bool)
  | int (n : Int64)
  | float (x : Binary64)
  | string (s : String)
  | bytes (bs : List UInt8)
  | date (d : Date)
  | dateTime (t : DateTime)
  | array (items : List Value)
  | object (entries : List (String × Value))
  deriving Inhabited

/-- Values by field name. -/
abbrev Record := Entries Value

/-- A flat result row: columns in the order they were selected. -/
abbrev Row := List (String × Value)

namespace Value

/-- The absent value. -/
def isNull : Value → Bool
  | .null => true
  | _ => false

/-- Whether a value counts as true for `not`, `and`, `or` and filters: null, false, zero and the empty
text, bytes and list do not. -/
def truthy : Value → Bool
  | .null => false
  | .bool b => b
  | .int n => n != 0
  | .float x => !x.isZero
  | .string s => s != ""
  | .bytes bs => !bs.isEmpty
  | .array items => !items.isEmpty
  | .date _ => true
  | .dateTime _ => true
  | .object _ => true

/-- The text of a string value. -/
def asString? : Value → Option String
  | .string s => some s
  | _ => none

/-- The number of an integer value. -/
def asInt? : Value → Option Int64
  | .int n => some n
  | _ => none

@[simp] theorem isNull_iff (v : Value) : v.isNull = true ↔ v = .null := by
  cases v <;> simp [isNull]

end Value

end RecordQuery
