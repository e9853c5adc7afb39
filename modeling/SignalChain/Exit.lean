import SignalChain.Fault

/-!
# How stages end
-/

namespace SignalChain

/-- How a stage left its loop. -/
inductive Exit where
  /-- It was asked to stop, or its input was closed. -/
  | shutdown
  /-- The output refused too many commands in a row. -/
  | halted (cause : OutputFault)
  deriving DecidableEq

/-- Why a stage halted, if it did. -/
def Exit.haltCause? : Exit → Option OutputFault
  | shutdown => none
  | halted cause => some cause

/-- The outcome of one cycle of a stage. -/
inductive Cycle where
  /-- The stage goes on. -/
  | again
  /-- The stage is done. -/
  | left (exit : Exit)
  deriving DecidableEq

/-- How the three stages of a chain left their loops. -/
structure Exits where
  sampler : Exit
  filter : Exit
  actuator : Exit
  deriving DecidableEq

/-- The result of a whole run: the first stage that halted, if any did, decides it. -/
def Exits.result (e : Exits) : Except Fault Unit :=
  match [e.sampler, e.filter, e.actuator].findSome? Exit.haltCause? with
  | some cause => .error (.output cause)
  | none => .ok ()

end SignalChain
