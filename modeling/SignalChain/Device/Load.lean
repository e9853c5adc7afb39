import SignalChain.Device.Pwm

/-!
# Loads

A load is an output for trying out a chain. It can be told to refuse every command with a fault of
choice; otherwise it accepts everything, or leaves the command to the PWM behind it.
-/

namespace SignalChain

/-- An output that refuses commands on demand. -/
structure Load where
  /-- The fault that every command is refused with at the moment. -/
  refusing : Option OutputFault := none
  /-- The output behind the load, if there is one. -/
  pwm : Option Pwm := none
  deriving DecidableEq

namespace Load

/-- Take a command. -/
def command (l : Load) (d : Duty) : Response Load :=
  match l.refusing, l.pwm with
  | some cause, _ => { answer := .error cause, output := l }
  | none, none => { answer := .ok (), output := l }
  | none, some pwm =>
    let r := pwm.command d
    { answer := r.answer, output := { l with pwm := some r.output }, lines := r.lines }

/-- The level of the channel behind the load. -/
def level? (l : Load) : Option UInt16 :=
  l.pwm.map (·.channel.level)

instance : Output Load where
  command := command

end Load

end SignalChain
