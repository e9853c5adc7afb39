import SignalChain.Quantity

/-!
# Duties

A duty says how long the output is high in every period. Duties come from a value on the scale of
the converter or from a percentage, and either way the high time is cut off to whole microseconds.
-/

namespace SignalChain

/-- A command to the output: high for `high` out of every `period`. -/
structure Duty where
  /-- The length of one cycle of the output. -/
  period : Micros
  /-- How long the output is high in every period. -/
  high : Micros
  deriving DecidableEq

namespace Duty

/-- Never high. -/
def off (period : Micros) : Duty where
  period
  high := 0

/-- The share of `period` that `value` is of `fullScale`; values above the scale count as full.
The product has up to eighty bits, so it is formed outside the word. A scale of nothing is always
full. -/
def ofValue (value fullScale : Reading) (period : Micros) : Duty where
  period
  high :=
    if fullScale = 0 then period
    else UInt64.ofNat (period.toNat * min value.toNat fullScale.toNat / fullScale.toNat)

/-- A percentage of `period`; percentages above one hundred count as one hundred. The product is
formed in the word, which holds it for every period of less than 2 ^ 57 microseconds. -/
def ofPercent (percent : UInt8) (period : Micros) : Duty where
  period
  high := period * (min percent 100).toUInt64 / 100

end Duty

end SignalChain
