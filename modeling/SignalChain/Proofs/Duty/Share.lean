import Mathlib.Data.Vector.Basic
import SignalChain.Duty

/-!
# Duties as shares of the period

The high times of duties in whole numbers. A duty for a value is computed without loss for every
period; a duty in per cent for every period that leaves room for the product.
-/

namespace SignalChain.Duty

/-- A share of something is at most all of it. -/
theorem share_le (whole part parts : Nat) : whole * min part parts / parts ≤ whole := by
  refine Nat.div_le_of_le_mul ?_
  rw [Nat.mul_comm parts]
  exact Nat.mul_le_mul_left whole (Nat.min_le_right part parts)

/-- The high time for a value is its share of the scale, cut off to whole microseconds. -/
theorem toNat_high_ofValue {value fullScale : Reading} {period : Micros} (h : fullScale ≠ 0) :
    (ofValue value fullScale period).high.toNat =
      period.toNat * min value.toNat fullScale.toNat / fullScale.toNat := by
  -- the share is at most the period, so that it fits the word it is put into
  have hshare := share_le period.toNat value.toNat fullScale.toNat
  simp only [ofValue, if_neg h]
  rw [UInt64.toNat_ofNat']
  exact Nat.mod_eq_of_lt (Nat.lt_of_le_of_lt hshare period.toNat_lt)

/-- The high time for a percentage is that part of the period, cut off to whole microseconds. -/
theorem toNat_high_ofPercent {percent : UInt8} {period : Micros} (h : period.toNat < 2 ^ 57) :
    (ofPercent percent period).high.toNat = period.toNat * min percent.toNat 100 / 100 := by
  have hmin : (min percent 100).toNat = min percent.toNat 100 := UInt8.toNat_min percent 100
  -- one hundred is less than 2 ^ 7, which is what the bound on the period leaves room for
  have hprod : period.toNat * min percent.toNat 100 < 2 ^ 64 := by
    have hle := Nat.mul_le_mul_left period.toNat (Nat.min_le_right percent.toNat 100)
    omega
  simp only [ofPercent]
  rw [UInt64.toNat_div, UInt64.toNat_mul, UInt8.toNat_toUInt64, hmin, Nat.mod_eq_of_lt hprod]
  rfl

end SignalChain.Duty
