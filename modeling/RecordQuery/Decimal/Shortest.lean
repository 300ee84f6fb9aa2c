import RecordQuery.Numeric.Binary64
set_option autoImplicit false

/-!
# Decimal: the fewest digits that identify a number

A finite binary64 number stands for the interval of reals that round to it.  `Binary64.shortest` looks for
a decimal in that interval on grids of one, two, … seventeen digits; the first grid with a hit decides, the
nearer of two hits wins, and a tie goes as the caller says.
-/

namespace RecordQuery

/-- A decimal `coefficient * 10 ^ exponent`. -/
structure Decimal where
  coefficient : Nat
  exponent : Int
  deriving DecidableEq, Repr, Inhabited

/-- Where the nearer of two equally near decimals lies. -/
inductive Tie where
  /-- the one farther from zero -/
  | away
  /-- the one with an even last digit -/
  | even
  deriving DecidableEq, Repr, Inhabited

namespace Decimal

/-- Compare `d` with `n * 2 ^ j`, exactly. -/
def compareBinary (d : Decimal) (n : Nat) (j : Int) : Ordering :=
  compare (d.coefficient * Nat.pow 10 d.exponent.toNat * Nat.pow 2 (-j).toNat)
    (n * Nat.pow 2 j.toNat * Nat.pow 10 (-d.exponent).toNat)

/-- Drop trailing zeros of the coefficient, at most `limit` of them. -/
def stripZeros : Nat → Decimal → Decimal
  | 0, d => d
  | limit + 1, d =>
    if d.coefficient % 10 = 0 ∧ d.coefficient ≠ 0 then
      stripZeros limit ⟨d.coefficient / 10, d.exponent + 1⟩
    else d

/-- The digits of the coefficient, most significant first. -/
def digits (d : Decimal) : List Char := Nat.toDigits 10 d.coefficient

end Decimal

namespace Binary64

/-- The gap to the next smaller magnitude is half the gap to the next larger one. -/
def narrowBelow (x : Binary64) : Bool := x.fraction == 0 && 1 < x.exponentField

/-- `d` lies in the interval of magnitudes that round to the magnitude of `x`. -/
def readsBack (x : Binary64) (d : Decimal) : Bool :=
  let lower := if x.narrowBelow then 4 * x.significand - 1 else 4 * x.significand - 2
  let upper := 4 * x.significand + 2
  let closed := x.significand % 2 == 0
  let low := d.compareBinary lower (x.exponent - 2)
  let high := d.compareBinary upper (x.exponent - 2)
  (low == .gt || (closed && low == .eq)) && (high == .lt || (closed && high == .eq))

/-- The least `k` with the magnitude of `x` below `10 ^ k`, for a finite `x` that is not zero. -/
def decimalScale (x : Binary64) : Int :=
  let bits : Int := (Nat.log2 x.significand : Int) + x.exponent
  let guess : Int := (bits * 30103) / 100000
  let below (k : Int) : Bool := Decimal.compareBinary ⟨1, k⟩ x.significand x.exponent == .gt
  if below guess then (if below (guess - 1) then guess - 1 else guess)
  else if below (guess + 1) then guess + 1
  else guess + 2

/-- The decimal of at most `n` digits that identifies `x`, if there is one. -/
def shortestOn (x : Binary64) (tie : Tie) (n : Nat) : Option Decimal :=
  let place := x.decimalScale - n
  let num := x.significand * Nat.pow 2 x.exponent.toNat * Nat.pow 10 (-place).toNat
  let den := Nat.pow 2 (-x.exponent).toNat * Nat.pow 10 place.toNat
  let low : Decimal := ⟨num / den, place⟩
  let high : Decimal := ⟨num / den + 1, place⟩
  match low.coefficient != 0 && x.readsBack low, x.readsBack high with
  | false, false => none
  | true, false => some low
  | false, true => some high
  | true, true =>
    match compare (2 * (num % den)) den with
    | .lt => some low
    | .gt => some high
    | .eq =>
      match tie with
      | .away => some high
      | .even => some (if low.coefficient % 2 = 0 then low else high)

/-- The fewest digits that identify the magnitude of a finite `x`; zero is written with one digit. -/
def shortest (x : Binary64) (tie : Tie) : Decimal :=
  if x.isZero then ⟨0, 0⟩
  else
    match (List.range 17).findSome? fun n => x.shortestOn tie (n + 1) with
    | some d => d.stripZeros 20
    | none => ⟨x.numerator * Nat.pow 5 (-x.exponent).toNat, -((-x.exponent).toNat : Int)⟩

end Binary64

end RecordQuery
