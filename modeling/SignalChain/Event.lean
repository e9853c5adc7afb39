import SignalChain.Duty
import SignalChain.Fault

/-!
# Events

What the stages report while they run, one value per occurrence.
-/

namespace SignalChain

/-- The three stages of a chain, in the order in which values pass them. -/
inductive Stage where
  | sampler
  | filter
  | actuator
  deriving DecidableEq

/-- The name of a stage, which is also the name of the task that runs it. -/
def Stage.name : Stage → String
  | sampler => "sampler"
  | filter => "filter"
  | actuator => "actuator"

/-- Why a cycle of the sampler published nothing. -/
inductive Rejection where
  /-- The sensor gave no reading. -/
  | readFailed (cause : SensorFault)
  /-- The reading was above the full scale of the converter. -/
  | outOfRange (raw : Reading)
  deriving DecidableEq

/-- What a stage reports. -/
inductive Event where
  /-- A reading went to the filter. -/
  | published (raw : Reading)
  /-- A cycle of the sampler published nothing. -/
  | rejected (reason : Rejection)
  /-- The sampler reached its release too late to sleep until it. -/
  | overrun (lateness : Micros)
  /-- The filter took in a sample and published the fine mean. -/
  | filtered (sample coarse fine : Reading)
  /-- The output accepted a command; `manual` says whether the override chose it. -/
  | issued (value : Reading) (duty : Duty) (manual : Bool)
  /-- The output refused a command, for the given number of times in a row. -/
  | refused (cause : OutputFault) (inARow : UInt8)
  /-- The actuator gave up on the output. -/
  | halted (cause : OutputFault)
  /-- A stage came to its end because it was asked to. -/
  | stopped (stage : Stage)
  deriving DecidableEq

/-- The stage that reports an event. -/
def Event.stage : Event → Stage
  | published _ | rejected _ | overrun _ => .sampler
  | filtered .. => .filter
  | issued .. | refused .. | halted _ => .actuator
  | stopped stage => stage

end SignalChain
