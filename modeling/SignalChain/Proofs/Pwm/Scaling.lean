import Mathlib.Algebra.Order.Floor.Div
import Mathlib.Tactic.Ring
import SignalChain.Proofs.Duty.Scaling

/-!
# How levels scale

A value comes to the channel in two steps, each of which is cut off to a whole number: first to a
high time, as a share of the period, and then to a level, as a share of the top. The two together
never come out above the share that the value itself is of the top (`share_of_share_le`), and below
it by no more than the levels that one microsecond of the period stands for
(`le_share_of_share_add`).

So the level for a value goes through the whole range of the channel, from nothing to the top, as
the value goes through its scale (`scales_of_period`).
-/

namespace SignalChain.Duty

/-- What is cut off twice is no greater than what is cut off once. -/
theorem share_of_share_le {period fullScale : Nat} (hperiod : 0 < period) (hscale : 0 < fullScale)
    (top value : Nat) :
    top * (period * value / fullScale) / period ≤ top * value / fullScale := by
  set high := period * value / fullScale with hhigh
  have hhigh_le : high * fullScale ≤ period * value := Nat.div_mul_le_self _ _
  have hlevel_le : top * high / period * period ≤ top * high := Nat.div_mul_le_self _ _
  rw [Nat.le_div_iff_mul_le hscale]
  -- the period is in both sides of what the two steps come to
  refine Nat.le_of_mul_le_mul_right ?_ hperiod
  calc top * high / period * fullScale * period
      = top * high / period * period * fullScale := by ring
    _ ≤ top * high * fullScale := Nat.mul_le_mul_right fullScale hlevel_le
    _ = top * (high * fullScale) := by ring
    _ ≤ top * (period * value) := Nat.mul_le_mul_left top hhigh_le
    _ = top * value * period := by ring

/-- What is cut off twice falls short of what is cut off once by no more than the part of the top
that one of the period stands for, rounded up. -/
theorem le_share_of_share_add {period fullScale : Nat} (hperiod : 0 < period)
    (hscale : 0 < fullScale) (top value : Nat) :
    top * value / fullScale ≤ top * (period * value / fullScale) / period + top ⌈/⌉ period := by
  set high := period * value / fullScale with hhigh
  set level := top * high / period with hlevel
  have hexact_le : top * value / fullScale * fullScale ≤ top * value := Nat.div_mul_le_self _ _
  have hhigh_lt : period * value < fullScale * (high + 1) := Nat.lt_mul_div_succ _ hscale
  have hlevel_lt : top * high < period * (level + 1) := Nat.lt_mul_div_succ _ hperiod
  have hstep : top ≤ period * (top ⌈/⌉ period) := (ceilDiv_le_iff_le_mul hperiod).mp le_rfl
  rw [← Nat.lt_add_one_iff]
  -- each step loses less than one, the first one in microseconds and the second one in levels
  refine Nat.lt_of_mul_lt_mul_right (a := fullScale * period) ?_
  calc top * value / fullScale * (fullScale * period)
      = top * value / fullScale * fullScale * period := by ring
    _ ≤ top * value * period := Nat.mul_le_mul_right period hexact_le
    _ = top * (period * value) := by ring
    _ ≤ top * (fullScale * (high + 1)) := Nat.mul_le_mul_left top hhigh_lt.le
    _ = fullScale * (top * high + top) := by ring
    _ < fullScale * (period * (level + 1) + period * (top ⌈/⌉ period)) :=
        Nat.mul_lt_mul_of_pos_left (Nat.add_lt_add_of_lt_of_le hlevel_lt hstep) hscale
    _ = (level + top ⌈/⌉ period + 1) * (fullScale * period) := by ring

end SignalChain.Duty

namespace SignalChain.Pwm

/-- The level for a value on a scale: that of the high time for it. -/
def levelOf (p : Pwm) (fullScale value : Reading) : UInt16 :=
  p.levelFor (Duty.ofValue value fullScale p.period).high

variable {p : Pwm} {fullScale value : Reading}

section

variable (hperiod : p.period ≠ 0) (hfits : p.channel.top.toNat * p.period.toNat < 2 ^ 64)
include hperiod hfits

/-- A longer high time has no lower level. -/
theorem levelFor_mono {high high' : Micros} (h : high ≤ high') :
    p.levelFor high ≤ p.levelFor high' := by
  rw [UInt16.le_iff_toNat_le, toNat_levelFor hperiod hfits, toNat_levelFor hperiod hfits]
  exact Duty.share_le_of_part_le (UInt64.le_iff_toNat_le.mp h) _ _

/-- The level of the whole period is the top. -/
theorem levelFor_period : p.levelFor p.period = p.channel.top := by
  rw [← UInt16.toNat_inj, toNat_levelFor hperiod hfits]
  exact Duty.share_of_parts_le (Duty.toNat_period_pos hperiod) (Nat.le_refl _) _

/-- A greater value has no lower level. -/
theorem levelOf_mono {value' : Reading} (h : value ≤ value') :
    p.levelOf fullScale value ≤ p.levelOf fullScale value' :=
  levelFor_mono hperiod hfits (Duty.high_ofValue_mono h fullScale p.period)

/-- On its scale, a value is cut off to a high time, and the high time to a level. -/
theorem toNat_levelOf (hscale : fullScale ≠ 0) (hvalue : value ≤ fullScale) :
    (p.levelOf fullScale value).toNat =
      p.channel.top.toNat * (p.period.toNat * value.toNat / fullScale.toNat) / p.period.toNat := by
  have hvalue := UInt16.le_iff_toNat_le.mp hvalue
  have hshare := Duty.share_le p.period.toNat value.toNat fullScale.toNat
  rw [levelOf, toNat_levelFor hperiod hfits, Duty.toNat_high_ofValue hscale,
    Nat.min_eq_left hshare, Nat.min_eq_left hvalue]

/-- Zero is at the bottom. -/
theorem levelOf_zero (hscale : fullScale ≠ 0) : p.levelOf fullScale 0 = 0 := by
  rw [← UInt16.toNat_inj, toNat_levelOf hperiod hfits hscale UInt16.zero_le]
  simp

/-- From the full scale on, values are at the top. -/
theorem levelOf_of_fullScale_le (hscale : fullScale ≠ 0) (hvalue : fullScale ≤ value) :
    p.levelOf fullScale value = p.channel.top := by
  rw [levelOf, (Duty.high_ofValue_eq_period_iff hperiod hscale).mpr hvalue]
  exact levelFor_period hperiod hfits

/-- No level is above the share that the value is of the top. -/
theorem levelOf_le_exact (hscale : fullScale ≠ 0) (hvalue : value ≤ fullScale) :
    (p.levelOf fullScale value).toNat ≤ p.channel.top.toNat * value.toNat / fullScale.toNat := by
  rw [toNat_levelOf hperiod hfits hscale hvalue]
  exact Duty.share_of_share_le (Duty.toNat_period_pos hperiod) (Duty.toNat_pos hscale) _ _

/-- A level is below the share that the value is of the top by no more than the levels of one
microsecond. -/
theorem exact_le_levelOf (hscale : fullScale ≠ 0) (hvalue : value ≤ fullScale) :
    p.channel.top.toNat * value.toNat / fullScale.toNat ≤
      (p.levelOf fullScale value).toNat + p.channel.top.toNat ⌈/⌉ p.period.toNat := by
  rw [toNat_levelOf hperiod hfits hscale hvalue]
  exact Duty.le_share_of_share_add (Duty.toNat_period_pos hperiod) (Duty.toNat_pos hscale) _ _

end

/-- The levels for the values on a scale. -/
structure Scales (p : Pwm) (fullScale : Reading) : Prop where
  mono : ∀ value value', value ≤ value' → p.levelOf fullScale value ≤ p.levelOf fullScale value'
  zero : p.levelOf fullScale 0 = 0
  full : p.levelOf fullScale fullScale = p.channel.top
  /-- Values above the scale count as full. -/
  above : ∀ value, fullScale ≤ value → p.levelOf fullScale value = p.levelOf fullScale fullScale
  le_exact : ∀ value ≤ fullScale, (p.levelOf fullScale value).toNat ≤
    p.channel.top.toNat * value.toNat / fullScale.toNat
  exact_le : ∀ value ≤ fullScale, p.channel.top.toNat * value.toNat / fullScale.toNat ≤
    (p.levelOf fullScale value).toNat + p.channel.top.toNat ⌈/⌉ p.period.toNat
  /-- With a microsecond for each level, at most one level is lost. -/
  exact_le_succ : p.channel.top.toNat ≤ p.period.toNat → ∀ value ≤ fullScale,
    p.channel.top.toNat * value.toNat / fullScale.toNat ≤ (p.levelOf fullScale value).toNat + 1

/-- The level for a value goes from zero to the top with the value on its scale, and is below the
share that the value is of the top by no more than the levels of one microsecond. -/
theorem scales_of_period (hperiod : p.period ≠ 0) (hlt : p.period.toNat < 2 ^ 32)
    (hscale : fullScale ≠ 0) : p.Scales fullScale := by
  -- the word that the level is reckoned in has room for every top and such a period
  have hfits : p.channel.top.toNat * p.period.toNat < 2 ^ 64 := by
    have hlt' := Nat.mul_lt_mul'' p.channel.top.toNat_lt hlt
    omega
  have hfull := levelOf_of_fullScale_le hperiod hfits hscale (UInt16.le_refl fullScale)
  refine
    { mono := fun _ _ h => levelOf_mono hperiod hfits h
      zero := levelOf_zero hperiod hfits hscale
      full := hfull
      above := fun _ hvalue =>
        (levelOf_of_fullScale_le hperiod hfits hscale hvalue).trans hfull.symm
      le_exact := fun _ hvalue => levelOf_le_exact hperiod hfits hscale hvalue
      exact_le := fun _ hvalue => exact_le_levelOf hperiod hfits hscale hvalue
      exact_le_succ := fun htop value hvalue => ?_ }
  -- a microsecond is then one level at most
  have hone : p.channel.top.toNat ⌈/⌉ p.period.toNat ≤ 1 :=
    (ceilDiv_le_iff_le_mul (Duty.toNat_period_pos hperiod)).mpr (by rwa [Nat.mul_one])
  exact Nat.le_trans (exact_le_levelOf hperiod hfits hscale hvalue) (Nat.add_le_add_left hone _)

/-- A value just below two thirds of the scale, on a period of three microseconds: its high time is
one of them, and the level a third of the top, short of the exact one by almost another third. -/
theorem scales_of_short_period :
    let p : Pwm := { channel := { top := 1000 }, period := 3 }
    p.period ≠ 0 ∧ p.period.toNat < 2 ^ 32 ∧ (1023 : Reading) ≠ 0 ∧ p.levelOf 1023 681 = 333 ∧
      p.channel.top.toNat * (681 : Reading).toNat / (1023 : Reading).toNat = 665 ∧
      p.Scales 1023 :=
  ⟨by decide, by decide, by decide, by decide, by decide,
    scales_of_period (by decide) (by decide) (by decide)⟩

end SignalChain.Pwm
