import RecordQuery.Toml.Basic
import RecordQuery.Text.Numeral
import RecordQuery.Text.Pieces
import RecordQuery.Calendar.Date
set_option autoImplicit false

/-!
# Toml: numbers, truth values and moments

A word outside quotes is a truth value, an integer, a float or a moment.  Single underscores may stand between
digits.  A decimal integer has no leading zeros; one in another base has no sign.
-/

namespace RecordQuery.Toml

/-- The digits of a run in which single underscores may stand between digits. -/
def digits? (isDigit : Char → Bool) (cs : List Char) : Option (List Char) :=
  let groups := Text.pieces '_' cs
  if groups.all (fun g => !g.isEmpty && g.all isDigit) then some groups.flatten else none

/-- The digits of a decimal integer without a sign. -/
def decimal? (cs : List Char) : Option (List Char) :=
  (digits? Char.isDigit cs).filter fun ds => ds.head? != some '0' || cs.length == 1

/-- A digit below a base. -/
def isDigitBelow (base : Nat) (c : Char) : Bool :=
  match Text.hexValue? c with
  | some n => n < base
  | none => false

/-- The number that digits write in a base. -/
def numberIn (base : Nat) (cs : List Char) : Nat :=
  cs.foldl (fun n c => base * n + (Text.hexValue? c).getD 0) 0

/-- An integer. -/
def integer? (cs : List Char) : Option Int64 :=
  match cs with
  | '0' :: 'x' :: rest => (digits? (isDigitBelow 16) rest).bind fun ds => Text.toInt64? (numberIn 16 ds)
  | '0' :: 'o' :: rest => (digits? (isDigitBelow 8) rest).bind fun ds => Text.toInt64? (numberIn 8 ds)
  | '0' :: 'b' :: rest => (digits? (isDigitBelow 2) rest).bind fun ds => Text.toInt64? (numberIn 2 ds)
  | _ =>
    let (negative, rest) := Text.takeSign cs
    (decimal? rest).bind fun ds =>
      let n : Int := Text.digitsValue ds
      Text.toInt64? (if negative then -n else n)

/-- The exponent of a float: nothing, or `e`, an optional sign and digits. -/
def exponent? : List Char → Option Int
  | [] => some 0
  | c :: rest =>
    if c = 'e' ∨ c = 'E' then
      let (negative, rest) := Text.takeSign rest
      (digits? Char.isDigit rest).map fun ds =>
        if negative then -(Text.digitsValue ds : Int) else Text.digitsValue ds
    else none

/-- The characters up to the exponent, and the exponent with its letter. -/
def cutExponent (cs : List Char) : List Char × List Char :=
  let isMantissa := fun c => c != 'e' && c != 'E'
  (cs.takeWhile isMantissa, cs.dropWhile isMantissa)

/-- A float: a decimal integer with a fraction, an exponent or both, or a special value.  A number too large
for a float is refused. -/
def float? (cs : List Char) : Option Binary64 :=
  let (negative, rest) := Text.takeSign cs
  if rest = "inf".toList then some (Binary64.infinity negative)
  else if rest = "nan".toList then some (if negative then Binary64.nan.neg else Binary64.nan)
  else do
    let (mantissa, power) := cutExponent rest
    let e ← exponent? power
    let x ← match Text.cutFirst '.' mantissa with
      | some (whole, fraction) => do
        let whole ← decimal? whole
        let fraction ← digits? Char.isDigit fraction
        pure (Binary64.ofDecimal negative (Text.digitsValue (whole ++ fraction)) (e - fraction.length))
      | none => do
        let whole ← decimal? mantissa
        if power = [] then none else pure (Binary64.ofDecimal negative (Text.digitsValue whole) e)
    if x = Binary64.infinity false then none else some x

/-! ## Moments -/

/-- The number that exactly so many digits write, and what follows them. -/
def readFixed (width : Nat) (cs : List Char) : Option (Nat × List Char) :=
  let run := cs.take width
  if run.length = width ∧ run.all Char.isDigit then some (Text.digitsValue run, cs.drop width) else none

/-- What follows a character. -/
def after? (c : Char) : List Char → Option (List Char)
  | [] => none
  | x :: rest => if x = c then some rest else none

/-- What follows a date. -/
def afterDate? (cs : List Char) : Option (List Char) := do
  let (year, rest) ← readFixed 4 cs
  let (month, rest) ← readFixed 2 (← after? '-' rest)
  let (day, rest) ← readFixed 2 (← after? '-' rest)
  let _ ← Date.of? year month day
  return rest

/-- What follows a time of day with seconds and perhaps a fraction; the second 60 is a leap second. -/
def afterTime? (cs : List Char) : Option (List Char) := do
  let (hour, rest) ← readFixed 2 cs
  let (minute, rest) ← readFixed 2 (← after? ':' rest)
  let (second, rest) ← readFixed 2 (← after? ':' rest)
  if 24 ≤ hour ∨ 60 ≤ minute ∨ 60 < second then none
  else
    match rest with
    | '.' :: fraction =>
      if (fraction.takeWhile Char.isDigit).isEmpty then none else some (fraction.dropWhile Char.isDigit)
    | rest => some rest

/-- What follows the offset of a time zone, if there is one. -/
def afterOffset? (cs : List Char) : Option (List Char) :=
  match cs with
  | 'Z' :: rest => some rest
  | 'z' :: rest => some rest
  | c :: rest =>
    if c = '+' ∨ c = '-' then do
      let (hour, rest) ← readFixed 2 rest
      let (minute, rest) ← readFixed 2 (← after? ':' rest)
      if 24 ≤ hour ∨ 60 ≤ minute then none else some rest
    else some cs
  | [] => some []

/-- A word is a time of day, perhaps with the offset of a time zone. -/
def isZonedTime (cs : List Char) : Bool := (afterTime? cs).bind afterOffset? = some []

/-- A word is a date, a time of day, or both joined by a letter `T` or a blank. -/
def isMoment (cs : List Char) : Bool :=
  match afterDate? cs with
  | some [] => true
  | some (c :: rest) => (c = 'T' || c = 't' || c = ' ') && isZonedTime rest
  | none => afterTime? cs = some []

/-! ## Words -/

/-- A character of a word. -/
def isWordChar (c : Char) : Bool := c.isAlphanum || c == '_' || c == '+' || c == '-' || c == '.' || c == ':'

/-- What a word stands for. -/
def word? (cs : List Char) : Option Toml :=
  if cs = "true".toList then some (.boolean true)
  else if cs = "false".toList then some (.boolean false)
  else if isMoment cs then some (.moment (String.ofList cs))
  else
    match float? cs with
    | some x => some (.float x)
    | none => (integer? cs).map .integer

/-- A word at the front of a text; a date takes the time after a blank with it. -/
def readWord (cs : List Char) : Option (Toml × List Char) :=
  let run := cs.takeWhile isWordChar
  let rest := cs.dropWhile isWordChar
  let time := rest.drop 1
  let both := run ++ ' ' :: time.takeWhile isWordChar
  if rest.head? = some ' ' ∧ afterDate? run = some [] ∧ isMoment both then
    some (.moment (String.ofList both), time.dropWhile isWordChar)
  else (word? run).map (·, rest)

end RecordQuery.Toml
