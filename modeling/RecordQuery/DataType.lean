import RecordQuery.Value.Basic
set_option autoImplicit false

/-!
# DataType: declared types and their placeholder codes

A data type is what a column declares and what a placeholder asks for.  Every type has one canonical code;
several spellings are understood, and the names of registered enumerations stand beside them.
-/

namespace RecordQuery

/-- Storage width of an integer column. -/
inductive IntWidth where
  | tiny
  | small
  | normal
  | big
  deriving DecidableEq, Repr, Inhabited

/-- A named enumeration and the texts it allows. -/
structure EnumType where
  name : String
  variants : List String
  deriving DecidableEq, Repr, Inhabited

/-- The type of a column or literal. -/
inductive DataType where
  | boolean
  /-- `serial`: the backend generates the values -/
  | integer (signed : Bool) (width : IntWidth) (serial : Bool)
  | float
  /-- text of at most so many characters, if bounded -/
  | string (maxLength : Option Nat)
  | text (nullable : Bool)
  | date
  | dateTime
  | binary
  /-- lists and nested records, stored as JSON text -/
  | object
  | enumeration (e : EnumType)
  deriving DecidableEq, Repr, Inhabited

/-- The enumerations that placeholders may name. -/
abbrev Registry := Entries EnumType

namespace Registry

/-- Register an enumeration under its name, replacing an earlier one. -/
def register (registry : Registry) (name : String) (variants : List String) : Registry :=
  Entries.insert registry name ⟨name, variants⟩

end Registry

namespace DataType

/-- A signed integer of normal width. -/
def int : DataType := .integer true .normal false

/-- A signed big integer that the backend generates. -/
def serial : DataType := .integer true .big true

/-- A string without a bound. -/
def plainString : DataType := .string none

/-- A text that may not be null. -/
def plainText : DataType := .text false

/-- The canonical code of a type. -/
def code : DataType → String
  | .boolean => "b"
  | .integer _ _ _ => "i"
  | .float => "f"
  | .string _ => "s"
  | .text _ => "t"
  | .date => "date"
  | .dateTime => "d"
  | .binary => "n"
  | .object => "object"
  | .enumeration e => e.name

/-- The code as a placeholder shows it. -/
def describe (t : DataType) : String := "%" ++ t.code

/-- The codes of the built-in types. -/
def builtIn : List (List String × DataType) :=
  [(["b", "bool", "boolean"], .boolean),
    (["i", "int", "integer"], int),
    (["f", "float"], .float),
    (["s", "str", "string"], plainString),
    (["t", "text"], plainText),
    (["date"], .date),
    (["d", "datetime"], .dateTime),
    (["n", "bin", "binary"], .binary),
    (["object"], .object)]

/-- A code without the percent sign it may start with. -/
def bareCode (code : String) : String :=
  match code.toList with
  | '%' :: rest => String.ofList rest
  | _ => code

/-- The type that a code names: a built-in type, else a registered enumeration. -/
def ofCode? (code : String) (registry : Registry) : Option DataType :=
  let bare := bareCode code
  match builtIn.find? fun entry => entry.1.contains bare with
  | some (_, t) => some t
  | none => (Entries.find? registry bare).map .enumeration

/-- The type that a value takes when none is given. -/
def infer : Value → DataType
  | .bool _ => .boolean
  | .int _ => int
  | .float _ => .float
  | .array _ => .object
  | .object _ => .object
  | _ => plainText

end DataType

end RecordQuery
