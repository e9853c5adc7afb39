/-!
# Binary floating point

Numbers with a mantissa of fifty-three bits and a bounded exponent. Every operation forms its exact
result as a ratio of natural numbers and rounds it once, to the nearest number and to the even
mantissa of two that are equally near.
-/

namespace SignalChain.Decimal

/-- The number `mantissa * 2 ^ exponent`. -/
structure Binary where
  mantissa : Nat
  exponent : Int
  deriving DecidableEq

/-- The quotient of two numbers, rounded to the nearest whole number, ties to even. -/
def roundDiv (num den : Nat) : Nat :=
  let q := num / den
  let r := num % den
  if 2 * r < den then q
  else if den < 2 * r then q + 1
  else if q % 2 = 0 then q
  else q + 1

namespace Binary

/-- The exponent of the smallest numbers. -/
def minExponent : Int := -1074

/-- The exponent of the greatest numbers. -/
def maxExponent : Int := 971

/-- The number zero, as one of the smallest numbers. -/
def zero : Binary := ⟨0, minExponent⟩

/-- The ratio `num / den` divided by `2 ^ e`, as a ratio. -/
def unscale (num den : Nat) (e : Int) : Nat × Nat :=
  if 0 ≤ e then (num, den * Nat.pow 2 e.toNat) else (num * Nat.pow 2 (-e).toNat, den)

/-- The number nearest to `num / den`, or `none` where that is above all numbers. -/
def ofRatio? (num den : Nat) : Option Binary :=
  if num = 0 then some zero
  else
    let guess : Int := (Nat.log2 num : Int) - (Nat.log2 den : Int) - 52
    let (n, d) := unscale num den guess
    let e := max minExponent (if n / d < Nat.pow 2 52 then guess - 1 else guess)
    let (n, d) := unscale num den e
    let m := roundDiv n d
    let (m, e) := if m = Nat.pow 2 53 then (Nat.pow 2 52, e + 1) else (m, e)
    if maxExponent < e then none else some ⟨m, e⟩

/-- A number as a ratio. -/
def toRatio (x : Binary) : Nat × Nat :=
  if 0 ≤ x.exponent then (x.mantissa * Nat.pow 2 x.exponent.toNat, 1)
  else (x.mantissa, Nat.pow 2 (-x.exponent).toNat)

/-- The product, rounded, or `none` where it is above all numbers. -/
def mul? (x y : Binary) : Option Binary :=
  ofRatio? (x.toRatio.1 * y.toRatio.1) (x.toRatio.2 * y.toRatio.2)

/-- The quotient, rounded, or `none` where it is above all numbers. -/
def div? (x y : Binary) : Option Binary :=
  ofRatio? (x.toRatio.1 * y.toRatio.2) (x.toRatio.2 * y.toRatio.1)

/-- The number nearest to a power of ten. -/
def pow10 (k : Nat) : Binary :=
  (ofRatio? (Nat.pow 10 k) 1).getD zero

/-- The greatest power of ten that is near a number. -/
def maxPow10 : Nat := 308

/-- `x * 10 ^ k`, with one rounding for the power, one for the product, and one more for every step
that it takes to bring a small power within range. Three such steps bring every `x` of at most
sixty-four bits to zero. The result is `none` where it is above all numbers. -/
def scale10 : Nat → Binary → Int → Option Binary
  | 0, _, _ => some zero
  | fuel + 1, x, k =>
    if k.natAbs ≤ maxPow10 then
      if 0 ≤ k then x.mul? (pow10 k.natAbs) else x.div? (pow10 k.natAbs)
    else if x.mantissa = 0 then some zero
    else if 0 ≤ k then none
    else (x.div? (pow10 maxPow10)).bind fun y => scale10 fuel y (k + maxPow10)

/-- The number read from `significand * 10 ^ k`. -/
def ofDecimal? (significand : Nat) (k : Int) : Option Binary :=
  (ofRatio? significand 1).bind fun x => scale10 4 x k

end Binary

end SignalChain.Decimal
