import SignalChain.Journal

/-!
# Ports

What the stages need of the hardware: a sensor that converts, and an output that takes commands.
A device is a type of states with the one operation of its port, so that the stages run on any
device, be it a script, a simulation or a real one.
-/

namespace SignalChain

/-- How a conversion ended, and how long it took. -/
structure Conversion where
  outcome : Except SensorFault Reading
  latency : Micros := 0

/-- A device that converts on demand. It answers with whatever the converter produced; the range
is the sampler's business. -/
class Sensor (σ : Type) where
  convert : σ → Conversion × σ

/-- What an output makes of a command. -/
structure Response (π : Type) where
  answer : Except OutputFault Unit
  /-- The state of the output afterwards. -/
  output : π
  /-- What the output wrote to the log. -/
  lines : List LogLine := []

/-- A device that takes commands. -/
class Output (π : Type) where
  command : π → Duty → Response π

end SignalChain
