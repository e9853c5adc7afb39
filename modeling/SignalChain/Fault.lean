/-!
# Faults

What can go wrong, as causes, and the wording of each cause in one place.
-/

namespace SignalChain

/-- Why a conversion gave no reading. -/
inductive SensorFault where
  /-- The converter reported an error or did not answer in time. -/
  | readFailed
  /-- The converter answered above its full scale. -/
  | outOfRange
  deriving DecidableEq

/-- Why the output refused a command. -/
inductive OutputFault where
  /-- The channel did not take the level. -/
  | writeFailed
  /-- The channel does not run at the period of the command. -/
  | invalidPeriod
  deriving DecidableEq

/-- A setting is out of range. -/
structure SettingsFault where
  /-- Which setting, and what it has to be. -/
  reason : String
  deriving DecidableEq

/-- Everything that ends a run early or keeps it from starting. -/
inductive Fault where
  /-- The actuator gave up on its output. -/
  | output (cause : OutputFault)
  | settings (cause : SettingsFault)
  /-- A task could not be started. -/
  | spawn (task : String)
  /-- A task broke off instead of coming to its end. -/
  | broken (task : String)
  deriving DecidableEq

/-- The wording of a sensor fault. -/
def SensorFault.message : SensorFault → String
  | readFailed => "ADC read failed"
  | outOfRange => "reading out of range"

/-- The wording of an output fault. -/
def OutputFault.message : OutputFault → String
  | writeFailed => "PWM write failed"
  | invalidPeriod => "invalid PWM period"

/-- The wording of a settings fault. -/
def SettingsFault.message (f : SettingsFault) : String :=
  "validation failed: " ++ f.reason

/-- The wording of a fault, which starts with the part of the chain it comes from. -/
def Fault.message : Fault → String
  | output cause => "actuator: " ++ cause.message
  | settings cause => "config: " ++ cause.message
  | spawn task => "failed to spawn task '" ++ task ++ "'"
  | broken task => "task '" ++ task ++ "' panicked"

end SignalChain
