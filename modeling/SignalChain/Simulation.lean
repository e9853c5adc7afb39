import SignalChain.Chain
import SignalChain.Device.Adc
import SignalChain.Device.Pwm
import SignalChain.Device.Wave

/-!
# Simulated runs

A chain on simulated hardware: a converter that the simulated input drives and a PWM channel with a
thousand levels. A round is one step of the input followed by one cycle of every stage, and takes
one period of the sampler on the clock of the chain.
-/

namespace SignalChain

/-- A chain on simulated hardware, and the steps that its input has made. -/
structure Simulation where
  chain : Chain Adc Pwm
  inputSteps : UInt32 := 0

namespace Simulation

/-- The top of the simulated channel. -/
def channelTop : UInt16 := 1000

/-- A simulation before its first round. The converter starts at half scale. -/
def start (s : Settings) : Except Fault Simulation := do
  let pwm : Pwm := { channel := { top := channelTop }, period := s.commandPeriod }
  let chain ← Chain.ofSettings s ({ raw := s.fullScale / 2 } : Adc) pwm
  return { chain }

/-- Make those of the moves that can be made. -/
def make (s : Simulation) (moves : List Chain.Move) : Simulation × Journal :=
  let (chain, journal) := s.chain.run moves
  ({ s with chain }, journal)

/-- One step of the input and one cycle of every stage. -/
def round (s : Simulation) : Simulation × Journal :=
  let adc := Wave.drive s.chain.sampler.fullScale s.inputSteps s.chain.wiring.sensor
  let s : Simulation :=
    { chain := { s.chain with wiring.sensor := adc }, inputSteps := s.inputSteps + 1 }
  s.make [.sample, .filter, .actuate]

/-- Whether the chain goes on by itself: until the deadline, and as long as nothing has halted. -/
def goesOn (s : Simulation) (deadline : Nat) : Bool :=
  s.chain.wiring.now.toNat < deadline && s.chain.samplerStanding = .running &&
    s.chain.actuatorStanding = .running

/-- Ask the chain to stop, and let every stage come to its end. -/
def stop (s : Simulation) : Simulation × Journal :=
  s.make [.requestStop, .sample, .filter, .actuate, .filter, .actuate]

/-- At most `n` further rounds, as long as the chain goes on. -/
def rounds (deadline : Nat) : Nat → Simulation → Simulation
  | 0, s => s
  | n + 1, s => if s.goesOn deadline then rounds deadline n s.round.1 else s

/-- A whole run of the given length in microseconds. The first round comes before the clock is
looked at; every further one takes at least a microsecond. -/
def run (s : Simulation) (length : Nat) : Simulation :=
  (rounds length length s.round.1).stop.1

end Simulation

end SignalChain
