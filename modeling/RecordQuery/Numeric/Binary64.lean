set_option autoImplicit false

/-!
# Numeric: binary64 numbers

A number is its 64 bits: sign, eleven exponent bits, fifty-two fraction bits.  All arithmetic is exact
arithmetic on naturals followed by one rounding to nearest, ties to the even significand, so every
operation here is a total function that a proof can unfold.
-/

namespace RecordQuery

/-- A binary64 number given by its bits. -/
structure Binary64 where
  bits : UInt64
  deriving DecidableEq, Repr, Inhabited

namespace Binary64

/-! ## Fields -/

/-- The weight of the sign bit, `2 ^ 63`. -/
def signUnit : Nat := 9223372036854775808

/-- The number of fractions, `2 ^ 52`: so many magnitudes share an exponent. -/
def binadeUnit : Nat := 4503599627370496

/-- The bits below the sign bit. -/
def magnitudeBits (x : Binary64) : Nat := x.bits.toNat % signUnit

/-- The sign bit is set. -/
def isNegative (x : Binary64) : Bool := x.bits.toNat / signUnit == 1

/-- The eleven exponent bits. -/
def exponentField (x : Binary64) : Nat := x.magnitudeBits / binadeUnit

/-- The fifty-two fraction bits. -/
def fraction (x : Binary64) : Nat := x.magnitudeBits % binadeUnit

/-- The magnitude of an infinity. -/
def infinityBits : Nat := 2047 * binadeUnit

/-- Not a number: the exponent bits are all set and the fraction is not zero. -/
def isNaN (x : Binary64) : Bool := infinityBits < x.magnitudeBits

/-- Neither an infinity nor NaN. -/
def isFinite (x : Binary64) : Bool := x.magnitudeBits < infinityBits

theorem isNaN_of_isFinite {x : Binary64} (h : x.isFinite = true) : x.isNaN = false := by
  simp only [isFinite, decide_eq_true_eq] at h
  simp only [isNaN, decide_eq_false_iff_not]
  omega

/-- Either zero. -/
def isZero (x : Binary64) : Bool := x.magnitudeBits == 0

/-- The integer `m` of a finite magnitude `m * 2 ^ e`. -/
def significand (x : Binary64) : Nat :=
  if x.exponentField = 0 then x.fraction else binadeUnit + x.fraction

/-- The exponent `e` of a finite magnitude `m * 2 ^ e`. -/
def exponent (x : Binary64) : Int :=
  if x.exponentField = 0 then -1074 else (x.exponentField : Int) - 1075

/-! ## Construction -/

/-- The number with this sign and these magnitude bits. -/
def ofMagnitude (negative : Bool) (magnitude : Nat) : Binary64 :=
  ⟨UInt64.ofNat (magnitude + if negative then signUnit else 0)⟩

/-- Positive zero. -/
def zero : Binary64 := ofMagnitude false 0

/-- The infinity of the given sign. -/
def infinity (negative : Bool) : Binary64 := ofMagnitude negative infinityBits

/-- The quiet NaN. -/
def nan : Binary64 := ofMagnitude false (infinityBits + binadeUnit / 2)

/-- `num / den` rounded to the nearest integer, a half to the even neighbour. -/
def roundHalfEven (num den : Nat) : Nat :=
  let quotient := num / den
  let twice := 2 * (num % den)
  if den < twice ∨ (twice = den ∧ quotient % 2 = 1) then quotient + 1 else quotient

/-- The `e` with `2 ^ e ≤ num / den < 2 ^ (e + 1)`, for positive `num` and `den`. -/
def binaryScale (num den : Nat) : Int :=
  let guess : Int := (Nat.log2 num : Int) - Nat.log2 den
  if den * Nat.pow 2 guess.toNat ≤ num * Nat.pow 2 (-guess).toNat then guess else guess - 1

/-- The magnitude bits nearest to `num / den`; the infinity where the quotient is too large. -/
def nearestMagnitude (num den : Nat) : Nat :=
  if num = 0 then 0
  else
    let unit : Int := max (binaryScale num den - 52) (-1074)
    let rounded := roundHalfEven (num * Nat.pow 2 (-unit).toNat) (den * Nat.pow 2 unit.toNat)
    min ((unit + 1074).toNat * binadeUnit + rounded) infinityBits

/-- The number nearest to `± num / den`. -/
def ofRatio (negative : Bool) (num den : Nat) : Binary64 :=
  ofMagnitude negative (nearestMagnitude num den)

/-- The number nearest to an integer. -/
def ofInt (n : Int) : Binary64 := ofRatio (n < 0) n.natAbs 1

/-- The number nearest to `± coefficient * 10 ^ exponent`.  A decimal whose leading digit stands beyond
the four-hundredth place on either side is out of range, and is answered without computing the power. -/
def ofDecimal (negative : Bool) (coefficient : Nat) (exponent : Int) : Binary64 :=
  let place : Int := (Nat.toDigits 10 coefficient).length + exponent
  if coefficient = 0 ∨ place < -400 then ofMagnitude negative 0
  else if 400 < place then infinity negative
  else ofRatio negative (coefficient * Nat.pow 10 exponent.toNat) (Nat.pow 10 (-exponent).toNat)

/-! ## Value -/

/-- Numerator of the magnitude of a finite number. -/
def numerator (x : Binary64) : Nat := x.significand * Nat.pow 2 x.exponent.toNat

/-- Denominator of the magnitude of a finite number. -/
def denominator (x : Binary64) : Nat := Nat.pow 2 (-x.exponent).toNat

/-- A finite number without a fractional part. -/
def isIntegral (x : Binary64) : Bool := x.isFinite && x.numerator % x.denominator == 0

/-- The number cut toward zero and clamped to `lo .. hi`; NaN becomes zero. -/
def truncateClamped (lo hi : Int) (x : Binary64) : Int :=
  if x.isNaN then 0
  else if x.isFinite then
    let whole : Int := x.numerator / x.denominator
    max lo (min hi (if x.isNegative then -whole else whole))
  else if x.isNegative then lo else hi

/-! ## Comparison -/

/-- Integer with the order of the numbers; both zeros have the key zero. -/
def orderKey (x : Binary64) : Int :=
  if x.isNegative then -(x.magnitudeBits : Int) else x.magnitudeBits

/-- Numeric equality: NaN differs from everything, the two zeros are equal. -/
def numericEq (x y : Binary64) : Bool :=
  !x.isNaN && !y.isNaN && x.orderKey == y.orderKey

/-- Numeric order, undefined where a side is NaN. -/
def numericCompare (x y : Binary64) : Option Ordering :=
  if x.isNaN || y.isNaN then none else some (compare x.orderKey y.orderKey)

/-! ## Scaling -/

/-- The product of two finite numbers, rounded. -/
def mul (x y : Binary64) : Binary64 :=
  ofRatio (x.isNegative != y.isNegative) (x.numerator * y.numerator) (x.denominator * y.denominator)

/-- The quotient of two finite numbers, rounded; the divisor is not zero. -/
def div (x y : Binary64) : Binary64 :=
  ofRatio (x.isNegative != y.isNegative) (x.numerator * y.denominator) (x.denominator * y.numerator)

/-- The number with the other sign. -/
def neg (x : Binary64) : Binary64 := ofMagnitude (!x.isNegative) x.magnitudeBits

end Binary64

end RecordQuery
