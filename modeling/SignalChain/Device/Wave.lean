import SignalChain.Device.Adc

/-!
# The simulated input

A triangle over the whole scale, forty steps up and forty steps down, with a spike to full scale
on every thirteenth step and a failed conversion on every seventeenth. Steps are counted from
zero, so the first spike comes with step 12 and the first failure with step 16.
-/

namespace SignalChain.Wave

/-- Steps from zero to full scale. -/
def rampSteps : UInt32 := 40

/-- Every how many steps there is a spike. -/
def spikeEvery : UInt32 := 13

/-- Every how many steps a conversion fails. -/
def failEvery : UInt32 := 17

/-- The triangle at step `n`. -/
def rampAt (fullScale : Reading) (n : UInt32) : Reading :=
  let phase := n % (2 * rampSteps)
  let rising := if phase < rampSteps then phase else 2 * rampSteps - phase
  (fullScale.toUInt32 * rising / rampSteps).toUInt16

/-- Put the input of step `n` onto the converter. -/
def drive (fullScale : Reading) (n : UInt32) (a : Adc) : Adc :=
  let a := a.set (if n % spikeEvery = spikeEvery - 1 then fullScale else rampAt fullScale n)
  if n % failEvery = failEvery - 1 then a.failNext 1 else a

/-- The conversions of `steps` steps from step `n` on, with `reads` conversions in every step. -/
def readings (fullScale : Reading) (reads : Nat) :
    Nat → UInt32 → Adc → List (Except SensorFault Reading)
  | 0, _, _ => []
  | steps + 1, n, a =>
    let (outcomes, a) := (drive fullScale n a).readTimes reads
    outcomes ++ readings fullScale reads steps (n + 1) a

end SignalChain.Wave
