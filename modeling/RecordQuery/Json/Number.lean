import RecordQuery.Json.Basic
import RecordQuery.Text.Numeral
set_option autoImplicit false

/-!
# Json: numbers

A number without fraction and exponent that fits into 64 bits is read exactly.  Any other number is read
in two steps, each of which rounds: its significand is kept in 64 bits, further digits only move the
decimal point, and the result is scaled by a power of ten.  A number too large for a binary64 is refused.
-/

namespace RecordQuery.Json

/-- The largest significand. -/
def maxSignificand : Nat := 18446744073709551615

/-- The value of a digit. -/
def digitValue (c : Char) : Nat := c.toNat - '0'.toNat

/-- Take digits into a significand as long as it fits; the digits that do not fit remain. -/
def accumulate : Nat → List Char → Nat × List Char
  | n, [] => (n, [])
  | n, c :: rest =>
    if c.isDigit ∧ 10 * n + digitValue c ≤ maxSignificand then accumulate (10 * n + digitValue c) rest
    else (n, c :: rest)

/-- Scale by a power of ten: one product, or quotients by at most `10 ^ 308` each.  Three such quotients
bring any significand to zero. -/
def scale : Nat → Binary64 → Int → Option Binary64
  | 0, x, _ => some x
  | steps + 1, x, exponent =>
    if exponent.natAbs ≤ 308 then
      let power := Binary64.ofDecimal false 1 exponent.natAbs
      if 0 ≤ exponent then
        let product := x.mul power
        if product.isFinite then some product else none
      else some (x.div power)
    else if x.isZero then some x
    else if 0 ≤ exponent then none
    else scale steps (x.div (Binary64.ofDecimal false 1 308)) (exponent + 308)

/-- The number with this sign, significand and power of ten. -/
def ofParts (negative : Bool) (significand : Nat) (exponent : Int) : Option Json :=
  (scale 4 (Binary64.ofInt significand) exponent).map fun x => .float (if negative then x.neg else x)

/-- The largest exponent. -/
def maxExponent : Nat := 2147483647

/-- A sum of exponents, kept within 32 bits. -/
def addExponents (a b : Int) : Int := max (-2147483648) (min maxExponent (a + b))

/-- The number whose exponent digits follow. -/
def readExponent (negative : Bool) (significand : Nat) (start : Int) (cs : List Char) :
    Option (Json × List Char) :=
  let (down, afterSign) := Text.takeSign cs
  let run := afterSign.takeWhile Char.isDigit
  let rest := afterSign.dropWhile Char.isDigit
  if run = [] then none
  else
    let written := Text.digitsValue run
    if maxExponent < written then
      if significand ≠ 0 ∧ !down then none
      else some (.float (Binary64.ofMagnitude negative 0), rest)
    else
      (ofParts negative significand (addExponents start (if down then -(written : Int) else written))).map
        (·, rest)

/-- The number whose digits are all read: perhaps an exponent follows. -/
def finish (negative : Bool) (significand : Nat) (exponent : Int) (cs : List Char) :
    Option (Json × List Char) :=
  match cs with
  | 'e' :: rest => readExponent negative significand exponent rest
  | 'E' :: rest => readExponent negative significand exponent rest
  | rest => (ofParts negative significand exponent).map (·, rest)

/-- The number whose fraction digits follow the point. -/
def readFraction (negative : Bool) (significand : Nat) (exponent : Int) (cs : List Char) :
    Option (Json × List Char) :=
  let run := cs.takeWhile Char.isDigit
  if run = [] then none
  else
    let (total, ignored) := accumulate significand run
    finish negative total (exponent - (run.length - ignored.length : Nat)) (cs.dropWhile Char.isDigit)

/-- A whole number: an integer if it fits into 64 bits, a binary64 otherwise; minus zero is a binary64. -/
def ofWhole (negative : Bool) (n : Nat) : Json :=
  if negative then
    if n = 0 ∨ 9223372036854775808 < n then .float (Binary64.ofInt n).neg else .integer (-(n : Int))
  else .integer n

/-- A number at the front of a text. -/
def readNumber (cs : List Char) : Option (Json × List Char) :=
  let (negative, digits) := match cs with
    | '-' :: rest => (true, rest)
    | rest => (false, rest)
  let run := digits.takeWhile Char.isDigit
  let rest := digits.dropWhile Char.isDigit
  if run = [] ∨ (run.head? = some '0' ∧ 1 < run.length) then none
  else
    let (significand, ignored) := accumulate 0 run
    match ignored, rest with
    | [], '.' :: rest => readFraction negative significand 0 rest
    | [], 'e' :: rest => readExponent negative significand 0 rest
    | [], 'E' :: rest => readExponent negative significand 0 rest
    | [], rest => some (ofWhole negative significand, rest)
    | _, '.' :: rest => readFraction negative significand ignored.length rest
    | _, rest => finish negative significand ignored.length rest

end RecordQuery.Json
