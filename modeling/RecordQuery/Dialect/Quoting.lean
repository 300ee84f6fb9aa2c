import RecordQuery.Dialect
import RecordQuery.Coercion
set_option autoImplicit false

/-!
# Dialect: quoting

Identifiers stand between a dialect's delimiters, with the closing one doubled inside; dotted model names
are quoted part by part.  Values are encoded for their type first and then written as SQL literals.
-/

namespace RecordQuery

namespace Text

/-- A text with one character written twice. -/
def doubling (c : Char) (cs : List Char) : List Char :=
  cs.flatMap fun x => if x = c then [x, x] else [x]

@[simp] theorem doubling_nil (c : Char) : doubling c [] = [] := rfl

@[simp] theorem doubling_cons (c x : Char) (cs : List Char) :
    doubling c (x :: cs) = (if x = c then [x, x] else [x]) ++ doubling c cs := by
  simp [doubling]

end Text

namespace Dialect

/-! ## Identifiers -/

/-- The delimiter that opens a quoted identifier. -/
def openDelimiter : Dialect → Char
  | .postgres => '\x22'
  | .mysql => '\x60'
  | .sqlite => '\x22'
  | .sqlserver => '['

/-- The delimiter that closes a quoted identifier. -/
def closeDelimiter : Dialect → Char
  | .postgres => '\x22'
  | .mysql => '\x60'
  | .sqlite => '\x22'
  | .sqlserver => ']'

/-- An identifier between delimiters. -/
def quoteName (d : Dialect) (name : List Char) : List Char :=
  d.openDelimiter :: Text.doubling d.closeDelimiter name ++ [d.closeDelimiter]

/-- A quoted column name. -/
def quoteField (d : Dialect) (name : String) : String := String.ofList (d.quoteName name.toList)

/-- A quoted table name: each dotted part between delimiters. -/
def quoteModel (d : Dialect) (name : String) : String :=
  String.ofList (['.'].intercalate ((Text.pieces '.' name.toList).map d.quoteName))

/-! ## Literals -/

/-- A backslash in a string literal takes the next character literally. -/
def backslashEscapes : Dialect → Bool
  | .mysql => true
  | _ => false

/-- Whether booleans are stored as 1 and 0. -/
def boolAsInt : Dialect → Bool
  | .postgres => false
  | _ => true

/-- A string literal without a prefix mark. -/
def quoteString (d : Dialect) (s : String) : String :=
  let doubled := Text.doubling '\x27' s.toList
  let body := if d.backslashEscapes then Text.doubling '\\' doubled else doubled
  String.ofList ('\x27' :: body ++ ['\x27'])

/-- A literal of bytes. -/
def quoteBytes (d : Dialect) (bs : List UInt8) : String :=
  match d with
  | .postgres => "'\\x" ++ Text.hex bs ++ "'::bytea"
  | .mysql => "X'" ++ Text.hex bs ++ "'"
  | .sqlite => "X'" ++ Text.hex bs ++ "'"
  | .sqlserver => "0x" ++ Text.hex bs

mutual

/-- An encoded value as a literal. -/
def quoteEncoded (d : Dialect) : Value → String
  | .null => "NULL"
  | .bool b => if b then "TRUE" else "FALSE"
  | .int n => toString n.toInt
  | .float x => if x.isFinite then x.render .exact else "NULL"
  | .string s => d.quoteString s
  | .bytes bs => d.quoteBytes bs
  | .date day => d.quoteString day.text
  | .dateTime t => d.quoteString t.text
  | .array items => "(" ++ Text.joined ", " (quoteEncodedItems d items) ++ ")"
  | .object entries => d.quoteString (Value.toJson (.object entries)).compactText
termination_by structural v => v

/-- Encoded values as literals. -/
def quoteEncodedItems (d : Dialect) : List Value → List String
  | [] => []
  | v :: vs => d.quoteEncoded v :: quoteEncodedItems d vs
termination_by structural vs => vs

end

/-- The mark before a string literal that keeps text of any script intact. -/
def stringMark : Dialect → String
  | .sqlserver => "N"
  | _ => ""

/-- An encoded value as a literal, with the mark of string literals. -/
def quoteMarked (d : Dialect) (v : Value) : String :=
  match v with
  | .string s => d.stringMark ++ d.quoteString s
  | v => d.quoteEncoded v

/-- What the dialect stores for a value of a type. -/
def encode (d : Dialect) (t : DataType) (v : Value) : Outcome Value := t.encode d.boolAsInt v

/-- A value of a type as a literal. -/
def quoteLiteral (d : Dialect) (t : DataType) (v : Value) : Outcome String := do
  return d.quoteMarked (← d.encode t v)

/-! ## Statements -/

/-- The tail that bounds a SELECT; `ordered` tells whether an ORDER BY stands before it. -/
def limitOffset (d : Dialect) (limit : Option Nat) (offset : Nat) (ordered : Bool) : String :=
  match d with
  | .postgres =>
    (match limit with
      | some n => " LIMIT " ++ toString n
      | none => "") ++
    (if 0 < offset then " OFFSET " ++ toString offset else "")
  | .sqlserver =>
    if limit = none ∧ offset = 0 then ""
    else
      (if ordered then "" else " ORDER BY (SELECT NULL)") ++
      " OFFSET " ++ toString offset ++ " ROWS" ++
      (match limit with
        | some n => " FETCH NEXT " ++ toString n ++ " ROWS ONLY"
        | none => "")
  | .mysql => boundedTail "18446744073709551615"
  | .sqlite => boundedTail "-1"
where
  /-- An OFFSET needs a LIMIT before it: `unlimited` stands for none. -/
  boundedTail (unlimited : String) : String :=
    match limit, offset with
    | some n, 0 => " LIMIT " ++ toString n
    | some n, o => " LIMIT " ++ toString n ++ " OFFSET " ++ toString o
    | none, 0 => ""
    | none, o => " LIMIT " ++ unlimited ++ " OFFSET " ++ toString o

/-- Result column names match fields only in the same case. -/
def caseSensitiveFields : Dialect → Bool
  | .mysql => false
  | _ => true

/-- UPDATE and DELETE take ORDER BY and LIMIT themselves. -/
def boundsMutations : Dialect → Bool
  | .mysql => true
  | _ => false

/-- An aliased UPDATE or DELETE names its table in a FROM clause. -/
def aliasInFrom : Dialect → Bool
  | .sqlserver => true
  | _ => false

end Dialect

/-- How a generated key is read back after an INSERT. -/
inductive KeyRetrieval where
  /-- a RETURNING clause at the end answers the key as a row -/
  | returning
  /-- an OUTPUT clause answers the key as a row -/
  | output
  /-- the connection is asked for its last key -/
  | lastInsertId
  deriving DecidableEq, Repr, Inhabited

/-- How a dialect reads back a generated key. -/
def Dialect.keyRetrieval : Dialect → KeyRetrieval
  | .postgres => .returning
  | .sqlserver => .output
  | _ => .lastInsertId

end RecordQuery
