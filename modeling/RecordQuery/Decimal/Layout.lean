import RecordQuery.Decimal.Shortest
set_option autoImplicit false

/-!
# Decimal: laying out digits as text

Which digits to write is settled by `Binary64.shortest`; this module settles how they are written.  A
`Layout` is the record of those decisions, and `Binary64.render` follows it.
-/

namespace RecordQuery

/-- The decisions of a number format. -/
structure Layout where
  /-- where an exact tie between two shortest decimals goes -/
  tie : Tie
  /-- positional from `10 ^ (low - 1)` on, if bounded below -/
  low : Option Int
  /-- positional below `10 ^ high`, if bounded above -/
  high : Option Int
  /-- an integer written positionally carries `.0` -/
  pointZero : Bool
  /-- a positive exponent carries a plus sign -/
  plusSign : Bool
  /-- text of NaN -/
  nan : String
  /-- text of the positive infinity -/
  infinity : String
  /-- text of the negative infinity -/
  negativeInfinity : String
  deriving DecidableEq, Repr, Inhabited

namespace Layout

/-- Positional digits: `point` digits stand before the point. -/
def positional (digits : List Char) (point : Int) (pointZero : Bool) : List Char :=
  let count : Int := digits.length
  if point ≤ 0 then
    '0' :: '.' :: List.replicate (-point).toNat '0' ++ digits
  else if point < count then
    digits.take point.toNat ++ '.' :: digits.drop point.toNat
  else
    digits ++ List.replicate (point - count).toNat '0' ++ (if pointZero then ['.', '0'] else [])

/-- One digit before the point, and the exponent after an `e`. -/
def exponential (digits : List Char) (exponent : Int) (plusSign : Bool) : List Char :=
  let mantissa :=
    match digits with
    | [] => []
    | [d] => [d]
    | d :: rest => d :: '.' :: rest
  mantissa ++ 'e' :: (if plusSign && 0 < exponent then ['+'] else []) ++ (toString exponent).toList

/-- Whether a number whose leading digit stands at `10 ^ (point - 1)` is written positionally. -/
def isPositional (layout : Layout) (point : Int) : Bool :=
  (match layout.low with
    | some low => low ≤ point
    | none => true) &&
  (match layout.high with
    | some high => point ≤ high
    | none => true)

end Layout

/-- The text of a number under a layout. -/
def Binary64.render (layout : Layout) (x : Binary64) : String :=
  if x.isNaN then layout.nan
  else if !x.isFinite then
    if x.isNegative then layout.negativeInfinity else layout.infinity
  else
    let sign := if x.isNegative then ['-'] else []
    if x.isZero then
      String.ofList (sign ++ '0' :: (if layout.pointZero then ['.', '0'] else []))
    else
      let d := x.shortest layout.tie
      let digits := d.digits
      let point := d.exponent + digits.length
      String.ofList (sign ++
        if layout.isPositional point then Layout.positional digits point layout.pointZero
        else Layout.exponential digits (point - 1) layout.plusSign)

end RecordQuery
