import SignalChain.Device.Pwm
import SignalChain.Proofs.Duty.Share

/-!
# Levels as shares of the top

The level of a high time is the share of the top that the high time is of the period, cut off to a
whole number (`toNat_levelFor`). It is computed without loss where the word has room for the product
of the top and the period, and is never above the top. So a channel that does not fail takes every
command for its own period (`command_of_period_eq`).
-/

namespace SignalChain.Pwm

variable {p : Pwm} {d : Duty}

/-- The level of a high time is its share of the top; high times above the period count as full. -/
theorem toNat_levelFor (hperiod : p.period ≠ 0)
    (hfits : p.channel.top.toNat * p.period.toNat < 2 ^ 64) (high : Micros) :
    (p.levelFor high).toNat =
      p.channel.top.toNat * min high.toNat p.period.toNat / p.period.toNat := by
  -- the product is greatest for a high time of the whole period
  have hprod : p.channel.top.toNat * min high.toNat p.period.toNat ≤
      p.channel.top.toNat * p.period.toNat :=
    Nat.mul_le_mul_left _ (Nat.min_le_right _ _)
  have hshare := Duty.share_le p.channel.top.toNat high.toNat p.period.toNat
  rw [levelFor, if_neg hperiod, UInt64.toNat_toUInt16, UInt64.toNat_div, UInt64.toNat_mul,
    UInt64.toNat_min, UInt16.toNat_toUInt64, Nat.mod_eq_of_lt (Nat.lt_of_le_of_lt hprod hfits)]
  exact Nat.mod_eq_of_lt (Nat.lt_of_le_of_lt hshare p.channel.top.toNat_lt)

/-- No level is above the top. -/
theorem levelFor_le (hperiod : p.period ≠ 0)
    (hfits : p.channel.top.toNat * p.period.toNat < 2 ^ 64) (high : Micros) :
    p.levelFor high ≤ p.channel.top := by
  rw [UInt16.le_iff_toNat_le, toNat_levelFor hperiod hfits]
  exact Duty.share_le _ _ _

/-- A channel that does not fail takes a command for its own period, and is then at the level of the
high time. -/
theorem command_of_period_eq (hfailing : p.failing = false) (hperiod : p.period ≠ 0)
    (hfits : p.channel.top.toNat * p.period.toNat < 2 ^ 64) (hd : d.period = p.period) :
    (p.command d).answer = .ok () ∧
      (p.command d).output = { p with channel.level := p.levelFor d.high } := by
  -- neither the check of the period nor the one of the level turns the command down
  have hmatches : ¬ (d.period ≠ p.period ∨ d.period = 0) := by simp [hd, hperiod]
  have hle : ¬ p.channel.top < p.levelFor d.high :=
    UInt16.not_lt.mpr (levelFor_le hperiod hfits d.high)
  have hwrite :
      p.write (p.levelFor d.high) = .ok { p with channel.level := p.levelFor d.high } := by
    rw [write, hfailing, Channel.write, if_neg hle]
    rfl
  rw [command, if_neg hmatches]
  simp [hwrite]

end SignalChain.Pwm
