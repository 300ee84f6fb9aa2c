import RecordQuery.Text.Blank
import RecordQuery.Numeric.Binary64
set_option autoImplicit false

/-!
# Text: numerals

Integers are read with an optional sign and any number of ASCII digits, as long as the value fits into
64 bits.  Numbers with a fraction are read exactly and rounded once.
-/

namespace RecordQuery.Text

/-- One more than the largest natural number of 64 bits. -/
def wordLimit : Nat := 18446744073709551616

/-- The value of a run of digits, most significant first. -/
def digitsValue (cs : List Char) : Nat :=
  cs.foldl (fun n c => 10 * n + (c.toNat - '0'.toNat)) 0

/-- The value of a hexadecimal digit. -/
def hexValue? (c : Char) : Option Nat :=
  if c.isDigit then some (c.toNat - '0'.toNat)
  else if 'a' ≤ c ∧ c ≤ 'f' then some (c.toNat - 'a'.toNat + 10)
  else if 'A' ≤ c ∧ c ≤ 'F' then some (c.toNat - 'A'.toNat + 10)
  else none

/-- The value of a non-empty text of ASCII digits. -/
def readNat (cs : List Char) : Option Nat :=
  if cs ≠ [] ∧ cs.all Char.isDigit then some (digitsValue cs) else none

/-- The sign that a text starts with, and what follows it. -/
def takeSign : List Char → Bool × List Char
  | '-' :: rest => (true, rest)
  | '+' :: rest => (false, rest)
  | cs => (false, cs)

/-- An integer with an optional sign. -/
def readInt (cs : List Char) : Option Int :=
  let (negative, rest) := takeSign cs
  (readNat rest).map fun n => if negative then -(n : Int) else n

/-- The integer as a 64-bit word, if it fits. -/
def toInt64? (n : Int) : Option Int64 :=
  if Int64.minValue.toInt ≤ n ∧ n ≤ Int64.maxValue.toInt then some (Int64.ofInt n) else none

/-- An integer with an optional sign that fits into 64 bits. -/
def readInt64 (cs : List Char) : Option Int64 := (readInt cs).bind toInt64?

/-- The exponent after a mantissa: nothing, or `e`, an optional sign and digits. -/
def readExponent : List Char → Option Int
  | [] => some 0
  | c :: rest => if c = 'e' ∨ c = 'E' then readInt rest else none

/-- A decimal numeral without a sign: digits, an optional point with digits on at least one side, and an
optional exponent. -/
def readUnsigned (negative : Bool) (cs : List Char) : Option Binary64 :=
  let whole := cs.takeWhile Char.isDigit
  let afterWhole := cs.dropWhile Char.isDigit
  let (fraction, afterFraction) :=
    match afterWhole with
    | '.' :: rest => (rest.takeWhile Char.isDigit, rest.dropWhile Char.isDigit)
    | rest => ([], rest)
  if whole = [] ∧ fraction = [] then none
  else
    (readExponent afterFraction).map fun e =>
      Binary64.ofDecimal negative (digitsValue (whole ++ fraction)) (e - fraction.length)

/-- A number: a decimal numeral, `inf`, `infinity` or `nan` in any case, with an optional sign. -/
def readBinary64 (cs : List Char) : Option Binary64 :=
  let (negative, rest) := takeSign cs
  let lower := rest.map Char.toLower
  if lower = "inf".toList ∨ lower = "infinity".toList then some (Binary64.infinity negative)
  else if lower = "nan".toList then some (if negative then Binary64.nan.neg else Binary64.nan)
  else readUnsigned negative rest

end RecordQuery.Text
