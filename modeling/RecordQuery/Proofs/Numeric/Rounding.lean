import Mathlib.Algebra.Group.Nat.Defs
import RecordQuery.Numeric.Binary64
set_option autoImplicit false

/-!
# Numeric: rounding keeps the order

An integer that lies in the binade of its leading bit is rounded to a whole number of units of this binade
(`nearestMagnitude_one`).  Within a binade rounding is monotone, and the magnitudes of a binade end where
those of the next one begin, so that a greater integer never becomes a smaller number
(`orderKey_ofInt_mono`).  It may well become the same number.
-/

namespace RecordQuery.Binary64

/-! ## Rounding a quotient -/

theorem roundHalfEven_le (num den : Nat) : roundHalfEven num den ≤ num / den + 1 := by
  simp only [roundHalfEven]
  split <;> omega

theorem le_roundHalfEven (num den : Nat) : num / den ≤ roundHalfEven num den := by
  simp only [roundHalfEven]
  split <;> omega

theorem roundHalfEven_mono {a b : Nat} (den : Nat) (h : a ≤ b) : roundHalfEven a den ≤ roundHalfEven b den := by
  rcases Nat.lt_or_eq_of_le (Nat.div_le_div_right (c := den) h) with hlt | heq
  · calc roundHalfEven a den ≤ a / den + 1 := roundHalfEven_le a den
      _ ≤ b / den := hlt
      _ ≤ roundHalfEven b den := le_roundHalfEven b den
  · -- with equal quotients the greater remainder is the one that may be rounded up
    have hrem : a % den ≤ b % den := by
      have ha := Nat.div_add_mod a den
      have hb := Nat.div_add_mod b den
      rw [heq] at ha
      omega
    simp only [roundHalfEven, heq]
    split <;> split <;> omega

theorem roundHalfEven_mul (q : Nat) {den : Nat} (hden : 0 < den) : roundHalfEven (q * den) den = q := by
  simp only [roundHalfEven, Nat.mul_div_cancel q hden, Nat.mul_mod_left]
  rw [if_neg (by omega)]

/-! ## Magnitudes of integers -/

/-- The magnitude of an integer whose leading bit has the weight `2 ^ e`, with no bound on the exponent. -/
def binadeMagnitude (e n : Nat) : Nat :=
  (e + 1022) * binadeUnit + roundHalfEven (n * 2 ^ (52 - e)) (2 ^ (e - 52))

theorem binaryScale_one {n : Nat} (hn : n ≠ 0) : binaryScale n 1 = n.log2 := by
  have hone : Nat.log2 1 = 0 := by decide
  have hguess : (n.log2 : Int) - Nat.log2 1 = n.log2 := by rw [hone, Int.natCast_zero, Int.sub_zero]
  have hle : 1 * Nat.pow 2 (n.log2 : Int).toNat ≤ n * Nat.pow 2 (-(n.log2 : Int)).toNat := by
    have hzero : (-(n.log2 : Int)).toNat = 0 := by omega
    rw [hzero, Int.toNat_natCast, Nat.one_mul, Nat.pow_eq, Nat.pow_eq, Nat.pow_zero, Nat.mul_one]
    exact Nat.log2_self_le hn
  simp only [binaryScale, hguess, if_pos hle]

theorem nearestMagnitude_one {n : Nat} (hn : n ≠ 0) :
    nearestMagnitude n 1 = min (binadeMagnitude n.log2 n) infinityBits := by
  have hunit : max ((n.log2 : Int) - 52) (-1074) = (n.log2 : Int) - 52 := by omega
  have hplace : ((n.log2 : Int) - 52 + 1074).toNat = n.log2 + 1022 := by omega
  have hup : (-((n.log2 : Int) - 52)).toNat = 52 - n.log2 := by omega
  have hdown : ((n.log2 : Int) - 52).toNat = n.log2 - 52 := by omega
  simp only [nearestMagnitude, if_neg hn, binaryScale_one hn, hunit, hplace, hup, hdown, Nat.pow_eq, Nat.one_mul,
    binadeMagnitude]

theorem binadeMagnitude_mono (e : Nat) {m n : Nat} (h : m ≤ n) : binadeMagnitude e m ≤ binadeMagnitude e n :=
  Nat.add_le_add_left (roundHalfEven_mono _ (Nat.mul_le_mul_right _ h)) _

/-- Powers of two are not rounded. -/
theorem binadeMagnitude_pow (e k : Nat) :
    binadeMagnitude e (2 ^ (e + k)) = (e + 1022) * binadeUnit + 2 ^ (52 + k) := by
  have hscale : 2 ^ (e + k) * 2 ^ (52 - e) = 2 ^ (52 + k) * 2 ^ (e - 52) := by
    rw [← Nat.pow_add, ← Nat.pow_add]
    congr 1
    omega
  rw [binadeMagnitude, hscale, roundHalfEven_mul _ (Nat.two_pow_pos _)]

/-- A binade ends where the next one begins. -/
theorem binadeMagnitude_succ (e : Nat) :
    binadeMagnitude e (2 ^ (e + 1)) = binadeMagnitude (e + 1) (2 ^ (e + 1)) := by
  rw [binadeMagnitude_pow e 1, binadeMagnitude_pow (e + 1) 0]
  simp only [binadeUnit]
  omega

theorem binadeMagnitude_pow_mono {d e : Nat} (h : d ≤ e) :
    binadeMagnitude d (2 ^ d) ≤ binadeMagnitude e (2 ^ e) := by
  have hd := binadeMagnitude_pow d 0
  have he := binadeMagnitude_pow e 0
  rw [Nat.add_zero] at hd he
  rw [hd, he]
  exact Nat.add_le_add_right (Nat.mul_le_mul_right _ (Nat.add_le_add_right h _)) _

theorem binadeMagnitude_log2_mono {m n : Nat} (hm : m ≠ 0) (h : m ≤ n) :
    binadeMagnitude m.log2 m ≤ binadeMagnitude n.log2 n := by
  have hn : n ≠ 0 := by omega
  have hlog2 : m.log2 ≤ n.log2 := (Nat.le_log2 hn).mpr (Nat.le_trans (Nat.log2_self_le hm) h)
  rcases Nat.lt_or_eq_of_le hlog2 with hlt | heq
  · calc binadeMagnitude m.log2 m
        ≤ binadeMagnitude m.log2 (2 ^ (m.log2 + 1)) := binadeMagnitude_mono _ (Nat.le_of_lt Nat.lt_log2_self)
      _ = binadeMagnitude (m.log2 + 1) (2 ^ (m.log2 + 1)) := binadeMagnitude_succ _
      _ ≤ binadeMagnitude n.log2 (2 ^ n.log2) := binadeMagnitude_pow_mono hlt
      _ ≤ binadeMagnitude n.log2 n := binadeMagnitude_mono _ (Nat.log2_self_le hn)
  · rw [heq]
    exact binadeMagnitude_mono _ h

theorem nearestMagnitude_mono {m n : Nat} (h : m ≤ n) : nearestMagnitude m 1 ≤ nearestMagnitude n 1 := by
  by_cases hm : m = 0
  · rw [hm, nearestMagnitude, if_pos rfl]
    exact Nat.zero_le _
  · rw [nearestMagnitude_one hm, nearestMagnitude_one (by omega)]
    have hmono := binadeMagnitude_log2_mono hm h
    omega

theorem nearestMagnitude_le (num den : Nat) : nearestMagnitude num den ≤ infinityBits := by
  unfold nearestMagnitude
  split
  · exact Nat.zero_le _
  · exact Nat.min_le_right _ _

/-! ## Order keys of integers -/

theorem infinityBits_lt : infinityBits < signUnit := by decide

theorem toNat_ofMagnitude (negative : Bool) {magnitude : Nat} (h : magnitude ≤ infinityBits) :
    (ofMagnitude negative magnitude).bits.toNat = magnitude + if negative then signUnit else 0 := by
  have hlt : magnitude < signUnit := Nat.lt_of_le_of_lt h infinityBits_lt
  rw [ofMagnitude, UInt64.toNat_ofNat']
  refine Nat.mod_eq_of_lt ?_
  simp only [signUnit] at *
  split <;> omega

theorem magnitudeBits_ofMagnitude (negative : Bool) {magnitude : Nat} (h : magnitude ≤ infinityBits) :
    (ofMagnitude negative magnitude).magnitudeBits = magnitude := by
  have hlt : magnitude < signUnit := Nat.lt_of_le_of_lt h infinityBits_lt
  rw [magnitudeBits, toNat_ofMagnitude negative h]
  cases negative with
  | false => exact Nat.mod_eq_of_lt hlt
  | true => exact (Nat.add_mod_right magnitude signUnit).trans (Nat.mod_eq_of_lt hlt)

theorem isNegative_ofMagnitude (negative : Bool) {magnitude : Nat} (h : magnitude ≤ infinityBits) :
    (ofMagnitude negative magnitude).isNegative = negative := by
  have hlt : magnitude < signUnit := Nat.lt_of_le_of_lt h infinityBits_lt
  have hdiv : magnitude / signUnit = 0 := Nat.div_eq_of_lt hlt
  rw [isNegative, toNat_ofMagnitude negative h]
  cases negative with
  | false => simp [hdiv]
  | true => simp [Nat.add_div_right magnitude (show 0 < signUnit by decide), hdiv]

theorem orderKey_ofInt (n : Int) :
    (ofInt n).orderKey = if n < 0 then -(nearestMagnitude n.natAbs 1 : Int) else nearestMagnitude n.natAbs 1 := by
  have hle := nearestMagnitude_le n.natAbs 1
  simp only [ofInt, ofRatio, orderKey, magnitudeBits_ofMagnitude _ hle, isNegative_ofMagnitude _ hle,
    decide_eq_true_eq]

/-- A number that is nearest to an integer is a number. -/
theorem isNaN_ofInt (n : Int) : (ofInt n).isNaN = false := by
  have hle := nearestMagnitude_le n.natAbs 1
  simp only [isNaN, ofInt, ofRatio, magnitudeBits_ofMagnitude _ hle]
  exact decide_eq_false (Nat.not_lt.mpr hle)

/-- Rounding never reverses the order of two integers. -/
theorem orderKey_ofInt_mono {m n : Int} (h : m ≤ n) : (ofInt m).orderKey ≤ (ofInt n).orderKey := by
  rw [orderKey_ofInt, orderKey_ofInt]
  by_cases hm : m < 0
  · by_cases hn : n < 0
    · have hmagnitude : nearestMagnitude n.natAbs 1 ≤ nearestMagnitude m.natAbs 1 := nearestMagnitude_mono (by omega)
      rw [if_pos hm, if_pos hn]
      omega
    · rw [if_pos hm, if_neg hn]
      omega
  · have hmagnitude : nearestMagnitude m.natAbs 1 ≤ nearestMagnitude n.natAbs 1 := nearestMagnitude_mono (by omega)
    rw [if_neg hm, if_neg (by omega)]
    omega

end RecordQuery.Binary64
