import SignalChain.Device.Port
import SignalChain.Exit
import SignalChain.Mailbox
import SignalChain.Override

/-!
# The wiring of a chain

Everything that the three stages share: the sensor with its clock, the mailbox between sampler and
filter, the mailbox between filter and actuator, the override, the request to stop, and the output.
A cycle of a stage takes the stage and the wiring to a turn, which holds both afterwards together
with the journal of the cycle.
-/

namespace SignalChain

/-- What the stages of a chain with sensor `σ` and output `π` share. -/
structure Wiring (σ π : Type) where
  sensor : σ
  /-- The clock. Conversions and sleeps advance it. -/
  now : Instant := 0
  /-- From the sampler to the filter. -/
  samples : Mailbox Reading := { value := 0 }
  /-- From the filter to the actuator. -/
  filtered : Mailbox Reading := { value := 0 }
  manual : Override := {}
  /-- Whether the chain has been asked to stop. -/
  stopRequested : Bool := false
  output : π

/-- What a stage of type `θ` did, with a result of type `ρ`. -/
structure Turn (θ σ π ρ : Type) where
  result : ρ
  stage : θ
  wiring : Wiring σ π
  journal : Journal := []

end SignalChain
