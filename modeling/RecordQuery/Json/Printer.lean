import RecordQuery.Json.Basic
import RecordQuery.Decimal.Layout
set_option autoImplicit false

/-!
# Json: printing

Two forms of JSON text: compact, without any white space, and indented by two spaces a level.  Strings
escape only the quote, the backslash and control characters; numbers have the fewest digits that identify
them, and numbers that are not finite are written as `null`.
-/

namespace RecordQuery

/-- JSON writes numbers positionally from `10 ^ -5` to `10 ^ 16`, with at least one fraction digit, and
others with the sign of their exponent. -/
def Layout.json : Layout :=
  { tie := .even, low := some (-4), high := some 16, pointZero := true, plusSign := true, nan := "null",
    infinity := "null", negativeInfinity := "null" }

namespace Json

/-- A hexadecimal digit of a control character. -/
def hexDigit (n : Nat) : Char := Nat.digitChar (n % 16)

/-- How a character stands inside a string. -/
def escapeChar (c : Char) : List Char :=
  match c with
  | '\x22' => ['\\', '\x22']
  | '\\' => ['\\', '\\']
  | '\x08' => ['\\', 'b']
  | '\x0c' => ['\\', 'f']
  | '\n' => ['\\', 'n']
  | '\r' => ['\\', 'r']
  | '\t' => ['\\', 't']
  | _ =>
    if c.toNat < 0x20 then ['\\', 'u', '0', '0', hexDigit (c.toNat / 16), hexDigit c.toNat]
    else [c]

/-- A string between quotes. -/
def printString (s : String) : List Char :=
  '\x22' :: s.toList.flatMap escapeChar ++ ['\x22']

/-- The text of a document that is not a container. -/
def printAtom : Json → List Char
  | .null => "null".toList
  | .bool true => "true".toList
  | .bool false => "false".toList
  | .integer n => (toString n).toList
  | .float x => (x.render .json).toList
  | .string s => printString s
  | .array _ => []
  | .object _ => []

mutual

/-- The compact text of a document. -/
def print : Json → List Char
  | .array items => '[' :: printItems items ++ [']']
  | .object members => '\x7b' :: printMembers members ++ ['\x7d']
  | .null => printAtom .null
  | .bool b => printAtom (.bool b)
  | .integer n => printAtom (.integer n)
  | .float x => printAtom (.float x)
  | .string s => printAtom (.string s)
termination_by structural json => json

/-- Items separated by commas. -/
def printItems : List Json → List Char
  | [] => []
  | [item] => item.print
  | item :: items => item.print ++ ',' :: printItems items
termination_by structural items => items

/-- Members separated by commas. -/
def printMembers : List (String × Json) → List Char
  | [] => []
  | [(key, value)] => printString key ++ ':' :: value.print
  | (key, value) :: members => printString key ++ ':' :: value.print ++ ',' :: printMembers members
termination_by structural members => members

end

/-- A line break and the indentation of a level. -/
def newLine (level : Nat) : List Char := '\n' :: List.replicate (2 * level) ' '

mutual

/-- The indented text of a document at a level. -/
def pretty : Json → Nat → List Char
  | .array [], _ => ['[', ']']
  | .array (item :: items), level =>
    '[' :: newLine (level + 1) ++ item.pretty (level + 1) ++ prettyItems items (level + 1) ++
      newLine level ++ [']']
  | .object [], _ => ['\x7b', '\x7d']
  | .object ((key, value) :: members), level =>
    '\x7b' :: newLine (level + 1) ++ printString key ++ [':', ' '] ++ value.pretty (level + 1) ++
      prettyMembers members (level + 1) ++ newLine level ++ ['\x7d']
  | .null, _ => printAtom .null
  | .bool b, _ => printAtom (.bool b)
  | .integer n, _ => printAtom (.integer n)
  | .float x, _ => printAtom (.float x)
  | .string s, _ => printAtom (.string s)
termination_by structural json => json

/-- Further items of an array, each on a line of its own. -/
def prettyItems : List Json → Nat → List Char
  | [], _ => []
  | item :: items, level => ',' :: newLine level ++ item.pretty level ++ prettyItems items level
termination_by structural items => items

/-- Further members of an object, each on a line of its own. -/
def prettyMembers : List (String × Json) → Nat → List Char
  | [], _ => []
  | (key, value) :: members, level =>
    ',' :: newLine level ++ printString key ++ [':', ' '] ++ value.pretty level ++
      prettyMembers members level
termination_by structural members => members

end

/-- The compact text of a document. -/
def compactText (json : Json) : String := String.ofList json.print

/-- The indented text of a document. -/
def prettyText (json : Json) : String := String.ofList (json.pretty 0)

end Json

end RecordQuery
