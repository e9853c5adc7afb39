import SignalChain.Device.Port

/-!
# Pulse-width modulation

A channel has a level between zero and its top. A PWM output turns commands into levels of its
channel: it takes only commands that are made for the period the channel runs at, and of those it
sets the share of the top that the high time is of the period.
-/

namespace SignalChain

/-- Why a channel did not take a level. -/
inductive ChannelFault where
  /-- The channel says no more than that it failed. -/
  | other
  deriving DecidableEq

/-- The name of a channel fault in the log. -/
def ChannelFault.name : ChannelFault → String
  | other => "Other"

/-- The wording of a channel fault. -/
def ChannelFault.message : ChannelFault → String
  | other => "A different error occurred. The original error may contain more information"

/-- A channel kept in memory. -/
structure Channel where
  /-- The level of a channel that is always high. -/
  top : UInt16
  level : UInt16 := 0
  deriving DecidableEq

/-- Set the level, which may not be above the top. -/
def Channel.write (c : Channel) (level : UInt16) : Except ChannelFault Channel :=
  if c.top < level then .error .other else .ok { c with level }

/-- An output that drives a channel. -/
structure Pwm where
  channel : Channel
  /-- The period the channel runs at. -/
  period : Micros
  /-- Whether the channel refuses every level at the moment. -/
  failing : Bool := false
  deriving DecidableEq

namespace Pwm

/-- The level of a high time; high times above the period count as the whole period. -/
def levelFor (p : Pwm) (high : Micros) : UInt16 :=
  if p.period = 0 then 0
  else (p.channel.top.toUInt64 * min high p.period / p.period).toUInt16

/-- Set a level on the channel, unless it fails. -/
def write (p : Pwm) (level : UInt16) : Except ChannelFault Pwm :=
  if p.failing then .error .other
  else (fun channel => { p with channel }) <$> p.channel.write level

/-- Take a command. The period is looked at first. -/
def command (p : Pwm) (d : Duty) : Response Pwm :=
  if d.period ≠ p.period ∨ d.period = 0 then
    { answer := .error .invalidPeriod
      output := p
      lines := [⟨.warn, "pwm: command period " ++ toString d.period.toNat ++
        "us does not match channel period " ++ toString p.period.toNat ++ "us"⟩] }
  else
    let level := p.levelFor d.high
    let shown : LogLine :=
      ⟨.debug, "pwm: level " ++ toString level.toNat ++ "/" ++ toString p.channel.top.toNat⟩
    match p.write level with
    | .ok output => { answer := .ok (), output, lines := [shown] }
    | .error cause =>
      { answer := .error .writeFailed
        output := p
        lines := [shown, ⟨.warn, "pwm: set_duty_cycle failed: " ++ cause.name⟩] }

instance : Output Pwm where
  command := command

end Pwm

end SignalChain
