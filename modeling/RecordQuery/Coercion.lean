import RecordQuery.Fault
import RecordQuery.Json.Reader
import RecordQuery.Text.Bytes
set_option autoImplicit false

/-!
# Coercion: bringing values into declared types

`encode` turns a value into what a backend stores for a type: booleans perhaps as 1 and 0, dates as ISO
text, objects as JSON text.  `decode` reads a stored value back and accepts the loose shapes that backends
return.  Null is null in every type.
-/

namespace RecordQuery

/-! ## Reading text -/

/-- The text that dates are read from: the first ten bytes, or all of a text that has no such cut. -/
def dateText (cs : List Char) : List Char := (Text.takeBytes 10 cs).getD cs

/-- The date that a text starts with. -/
def readDate? (s : String) : Option Date := Calendar.readDate Calendar.dayPattern (dateText s.toList)

/-- The moment that a text gives: with a space or a T before the time, or the midnight of a date. -/
def readDateTime? (s : String) : Option DateTime :=
  match Calendar.readDateTime Calendar.spacedFractionPattern s.toList with
  | some t => some t
  | none =>
    match Calendar.readDateTime Calendar.joinedFractionPattern s.toList with
    | some t => some t
    | none => (readDate? s).map DateTime.midnight

/-- The truth that a text spells, in any case. -/
def readBool? (s : String) : Option Bool :=
  let word := Text.asciiLower s
  if ["1", "t", "true", "y", "yes"].contains word then some true
  else if ["0", "f", "false", "n", "no"].contains word then some false
  else none

namespace DataType

/-! ## One kind of value -/

/-- The value has no representation in the type. -/
def mismatch {α : Type} (t : DataType) (v : Value) : Outcome α := .error (.invalid (.mismatch v t))

/-- The answer of a reader, or a mismatch. -/
def orMismatch {α : Type} (t : DataType) (v : Value) : Option α → Outcome α
  | some a => .ok a
  | none => t.mismatch v

/-- The value as a boolean. -/
def toBool (t : DataType) (v : Value) : Outcome Bool :=
  match v with
  | .bool b => .ok b
  | .int n => .ok (n != 0)
  | .string s => t.orMismatch v (readBool? s)
  | _ => t.mismatch v

/-- The value as an integer; a whole float beyond 64 bits is cut to the nearest integer. -/
def toInt (t : DataType) (v : Value) : Outcome Int64 :=
  match v with
  | .int n => .ok n
  | .bool b => .ok (if b then 1 else 0)
  | .float x =>
    if x.isIntegral then .ok (Int64.ofInt (x.truncateClamped Int64.minValue.toInt Int64.maxValue.toInt))
    else t.mismatch v
  | .string s => t.orMismatch v (Text.readInt64 (Text.trim s.toList))
  | _ => t.mismatch v

/-- The value as a float. -/
def toFloat (t : DataType) (v : Value) : Outcome Binary64 :=
  match v with
  | .float x => .ok x
  | .int n => .ok (Binary64.ofInt n.toInt)
  | .string s => t.orMismatch v (Text.readBinary64 (Text.trim s.toList))
  | _ => t.mismatch v

/-- The value as a date. -/
def toDate (t : DataType) (v : Value) : Outcome Date :=
  match v with
  | .date d => .ok d
  | .dateTime m => .ok m.date
  | .string s => t.orMismatch v (readDate? s)
  | _ => t.mismatch v

/-- The value as a moment. -/
def toDateTime (t : DataType) (v : Value) : Outcome DateTime :=
  match v with
  | .dateTime m => .ok m
  | .date d => .ok (.midnight d)
  | .string s => t.orMismatch v (readDateTime? s)
  | _ => t.mismatch v

/-- The value as bytes. -/
def toBytes (t : DataType) (v : Value) : Outcome (List UInt8) :=
  match v with
  | .bytes bs => .ok bs
  | .string s => .ok (Text.utf8 s)
  | _ => t.mismatch v

/-- The value as a variant of an enumeration. -/
def toVariant (e : EnumType) (v : Value) : Outcome String :=
  match v with
  | .string s => if e.variants.contains s then .ok s else .error (.invalid (.noVariant v e.name))
  | _ => .error (.invalid (.noVariant v e.name))

/-- The text of a value for a column of bounded length. -/
def toBoundedText (limit : Option Nat) (v : Value) : Outcome String :=
  match limit with
  | none => .ok v.matchText
  | some limit =>
    if limit < v.matchText.length then .error (.invalid (.tooLong v.matchText.length limit))
    else .ok v.matchText

/-! ## Encoding and decoding -/

/-- What a backend stores for a value that is not null. -/
def encodePresent (t : DataType) (boolAsInt : Bool) (v : Value) : Outcome Value :=
  match t with
  | .boolean => do
    let b ← t.toBool v
    return if boolAsInt then .int (if b then 1 else 0) else .bool b
  | .integer signed _ _ => do
    let n ← t.toInt v
    if !signed && n.toInt < 0 then .error (.invalid (.negative n)) else return .int n
  | .float => do return .float (← t.toFloat v)
  | .string limit => do return .string (← toBoundedText limit v)
  | .text _ => .ok (.string v.matchText)
  | .date => do return .string (← t.toDate v).text
  | .dateTime => do return .string (← t.toDateTime v).text
  | .binary => do return .bytes (← t.toBytes v)
  | .object => .ok (.string v.toJson.compactText)
  | .enumeration e => do return .string (← toVariant e v)

/-- What a backend stores for a value of a type; booleans are 1 and 0 where the backend has none. -/
def encode (t : DataType) (boolAsInt : Bool) (v : Value) : Outcome Value :=
  if v.isNull then .ok .null else t.encodePresent boolAsInt v

/-- The object that a value gives: JSON text, or a list or record as it is. -/
def toObject (t : DataType) (v : Value) : Outcome Value :=
  match v with
  | .string s =>
    match Json.read? s with
    | some json => .ok (Value.ofJson json)
    | none => .error (.invalid .badJson)
  | .array _ => .ok v
  | .object _ => .ok v
  | _ => t.mismatch v

/-- The value of a type that a stored value that is not null gives. -/
def decodePresent (t : DataType) (v : Value) : Outcome Value :=
  match t with
  | .boolean => do return .bool (← t.toBool v)
  | .integer _ _ _ => do return .int (← t.toInt v)
  | .float => do return .float (← t.toFloat v)
  | .string _ => .ok (.string v.matchText)
  | .text _ => .ok (.string v.matchText)
  | .date => do return .date (← t.toDate v)
  | .dateTime => do return .dateTime (← t.toDateTime v)
  | .binary => do return .bytes (← t.toBytes v)
  | .object => t.toObject v
  | .enumeration e => do return .string (← toVariant e (.string v.matchText))

/-- The value of a type that a stored value gives. -/
def decode (t : DataType) (v : Value) : Outcome Value :=
  if v.isNull then .ok .null else t.decodePresent v

@[simp] theorem decode_null (t : DataType) : t.decode .null = .ok .null := rfl

end DataType

end RecordQuery
