import SignalChain.Event

/-!
# Counters

Counters sum up the events of a run. The counts wrap at thirty-two bits, the worst lateness only
grows, and a halt is never taken back.
-/

namespace SignalChain

/-- What has been counted so far. -/
structure Counters where
  samplesPublished : UInt32 := 0
  readFailures : UInt32 := 0
  outOfRange : UInt32 := 0
  overruns : UInt32 := 0
  /-- The greatest lateness of an overrun. -/
  worstLateness : Micros := 0
  filterRuns : UInt32 := 0
  commandsIssued : UInt32 := 0
  /-- Those of the issued commands that the override chose. -/
  overriddenCommands : UInt32 := 0
  actuationFailures : UInt32 := 0
  actuatorHalted : Bool := false
  deriving DecidableEq

namespace Counters

/-- Count one event. -/
def record (c : Counters) : Event → Counters
  | .published _ => { c with samplesPublished := c.samplesPublished + 1 }
  | .rejected (.readFailed _) => { c with readFailures := c.readFailures + 1 }
  | .rejected (.outOfRange _) => { c with outOfRange := c.outOfRange + 1 }
  | .overrun lateness =>
    { c with overruns := c.overruns + 1, worstLateness := max c.worstLateness lateness }
  | .filtered .. => { c with filterRuns := c.filterRuns + 1 }
  | .issued _ _ manual =>
    { c with
      commandsIssued := c.commandsIssued + 1
      overriddenCommands := if manual then c.overriddenCommands + 1 else c.overriddenCommands }
  | .refused .. => { c with actuationFailures := c.actuationFailures + 1 }
  | .halted _ => { c with actuatorHalted := true }
  | .stopped _ => c

/-- Count a list of events, in order. -/
def recordAll (c : Counters) (es : List Event) : Counters :=
  es.foldl record c

/-- Counting can be broken off and taken up again anywhere. -/
@[simp]
theorem recordAll_append (c : Counters) (es fs : List Event) :
    c.recordAll (es ++ fs) = (c.recordAll es).recordAll fs :=
  List.foldl_append

end Counters

end SignalChain
