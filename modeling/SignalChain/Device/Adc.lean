import SignalChain.Device.Port

/-!
# A simulated converter

The converter answers with the reading it was last set to, except that it can be told to fail a
number of conversions first. Telling it again replaces the number.
-/

namespace SignalChain

/-- A simulated converter. -/
structure Adc where
  /-- The reading of the next conversion that does not fail. -/
  raw : Reading
  /-- How many conversions are still to fail. -/
  failing : UInt32 := 0
  deriving DecidableEq

namespace Adc

/-- Answer with `raw` from now on. -/
def set (a : Adc) (raw : Reading) : Adc :=
  { a with raw }

/-- Fail the next `count` conversions. -/
def failNext (a : Adc) (count : UInt32) : Adc :=
  { a with failing := count }

/-- Convert, which uses up one of the failures that are left. -/
def read (a : Adc) : Except SensorFault Reading × Adc :=
  if a.failing = 0 then (.ok a.raw, a)
  else (.error .readFailed, { a with failing := a.failing - 1 })

/-- Convert `n` times. -/
def readTimes (a : Adc) : Nat → List (Except SensorFault Reading) × Adc
  | 0 => ([], a)
  | n + 1 =>
    let (outcome, a) := a.read
    let (outcomes, a) := a.readTimes n
    (outcome :: outcomes, a)

instance : Sensor Adc where
  convert a := ({ outcome := a.read.1 }, a.read.2)

end Adc

end SignalChain
