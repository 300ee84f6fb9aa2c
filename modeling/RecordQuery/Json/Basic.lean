import RecordQuery.Entries
import RecordQuery.Numeric.Binary64
set_option autoImplicit false

/-!
# Json: documents

A JSON document.  Numbers without a fraction or exponent are integers, all others binary64 numbers.
Object members keep the order they are given in; a reader gives them in ascending order of their keys.
-/

namespace RecordQuery

/-- A JSON document. -/
inductive Json where
  | null
  | bool (b : Bool)
  | integer (n : Int)
  | float (x : Binary64)
  | string (s : String)
  | array (items : List Json)
  | object (members : List (String × Json))
  deriving Repr, Inhabited

namespace Json

/-- The member of an object with this key. -/
def member? : Json → String → Option Json
  | .object members, key => Entries.find? members key
  | _, _ => none

end Json

end RecordQuery
