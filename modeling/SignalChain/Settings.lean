import SignalChain.Fault
import SignalChain.Quantity

/-!
# Settings

The settings of a chain, their defaults, and the rules they have to keep. Nothing is clamped: a
setting that is out of range is refused, and of several the first in the order of the rules.
-/

namespace SignalChain

/-- The settings of a chain. -/
structure Settings where
  /-- The period of the sampler, in milliseconds. -/
  samplerPeriodMs : UInt32 := 1000
  /-- The resolution of the converter, whose full scale is `2 ^ bits - 1`. -/
  resolutionBits : UInt8 := 10
  /-- The period that duties are expressed against, in microseconds. -/
  commandPeriodUs : UInt32 := 1000
  /-- How many refused commands in a row halt the actuator. -/
  failureBudget : UInt8 := 1
  /-- The size of the stack of each task, in KiB. -/
  stackKb : UInt64 := 16
  deriving DecidableEq

namespace Settings

/-- What settings have to keep to, in the order in which it is checked. -/
inductive Rule where
  | samplerPeriod
  | resolution
  | commandPeriod
  | failureBudget
  | stack
  deriving DecidableEq

/-- Whether a rule is kept. -/
def Rule.holds (s : Settings) : Rule → Bool
  | samplerPeriod => s.samplerPeriodMs ≠ 0
  | resolution => 1 ≤ s.resolutionBits && s.resolutionBits ≤ 16
  | commandPeriod => s.commandPeriodUs ≠ 0
  | failureBudget => s.failureBudget ≠ 0
  | stack => 4 ≤ s.stackKb && s.stackKb ≤ 8192

/-- The wording of a rule. -/
def Rule.text : Rule → String
  | samplerPeriod => "sampler_period_ms must be non-zero"
  | resolution => "adc_resolution_bits must be within 1..=16"
  | commandPeriod => "command_period_us must be non-zero"
  | failureBudget => "max_consecutive_actuation_failures must be at least 1"
  | stack => "task_stack_kb must be within 4..=8192"

/-- The rules, in order. -/
def rules : List Rule :=
  [.samplerPeriod, .resolution, .commandPeriod, .failureBudget, .stack]

/-- The first rule that the settings break. -/
def violated? (s : Settings) : Option Rule :=
  rules.find? fun r => !r.holds s

/-- Accept settings that keep all rules. -/
def validate (s : Settings) : Except SettingsFault Unit :=
  match s.violated? with
  | some r => .error ⟨r.text⟩
  | none => .ok ()

/-- The greatest valid reading. -/
def fullScale (s : Settings) : Reading :=
  (((1 : UInt32) <<< s.resolutionBits.toUInt32) - 1).toUInt16

/-- The period of the sampler in the unit of the clocks. -/
def samplerPeriod (s : Settings) : Micros :=
  s.samplerPeriodMs.toUInt64 * 1000

/-- The period of the output in the unit of the clocks. -/
def commandPeriod (s : Settings) : Micros :=
  s.commandPeriodUs.toUInt64

end Settings

end SignalChain
