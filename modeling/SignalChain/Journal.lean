import SignalChain.Event

/-!
# Log lines and journals

A journal is the record of what happened, in order: lines written to the log, events reported,
sleeps, and commands given to the output. Every step of a stage returns the journal of that step,
and the views below pick out one kind of entry.

Every event also has a log line of its own, `Event.logLine`, from which it can be read back.
-/

namespace SignalChain

/-- How much a log line matters. -/
inductive Severity where
  | error
  | warn
  | info
  | debug
  deriving DecidableEq

/-- The name of a severity in the log. -/
def Severity.name : Severity → String
  | error => "ERROR"
  | warn => "WARN"
  | info => "INFO"
  | debug => "DEBUG"

/-- A line of the log. -/
structure LogLine where
  severity : Severity
  text : String
  deriving DecidableEq

/-- The line with its severity in front. -/
def LogLine.render (l : LogLine) : String :=
  l.severity.name ++ " " ++ l.text

/-- The high time over the period, in microseconds. -/
def Duty.fraction (d : Duty) : String :=
  toString d.high.toNat ++ "us/" ++ toString d.period.toNat ++ "us"

/-- The line that reports an event. -/
def Event.logLine : Event → LogLine
  | published raw => ⟨.debug, "SAMPLE | raw=" ++ toString raw.toNat⟩
  | rejected (.readFailed cause) => ⟨.warn, "SAMPLE | skipped: " ++ cause.message⟩
  | rejected (.outOfRange raw) =>
    ⟨.warn, "SAMPLE | skipped: raw=" ++ toString raw.toNat ++ " out of range"⟩
  | overrun lateness => ⟨.warn, "SAMPLE | overrun by " ++ toString lateness.toNat ++ "us"⟩
  | filtered sample coarse fine =>
    ⟨.debug, "FILTER | in=" ++ toString sample.toNat ++ " avg1=" ++ toString coarse.toNat ++
      " avg2=" ++ toString fine.toNat⟩
  | issued value duty manual =>
    ⟨.info, "ACT    | value=" ++ toString value.toNat ++ " duty=" ++ duty.fraction ++
      if manual then " [manual]" else ""⟩
  | refused cause inARow =>
    ⟨.warn, "ACT    | command failed: " ++ cause.message ++ " (x" ++ toString inARow.toNat ++ ")"⟩
  | halted cause =>
    ⟨.error, "ACT    | halted after " ++ cause.message ++ "; output no longer updated"⟩
  | stopped stage => ⟨.info, "STOP   | " ++ stage.name⟩

/-- One thing that happened. -/
inductive Entry where
  /-- A line was written to the log. -/
  | line (l : LogLine)
  /-- An event was reported. -/
  | event (e : Event)
  /-- The sampler slept until `deadline`. -/
  | slept (deadline : Instant)
  /-- The output was given a command and answered it. -/
  | commanded (d : Duty) (answer : Except OutputFault Unit)

/-- What happened, in order. -/
abbrev Journal := List Entry

namespace Journal

/-- The events of a journal. -/
def events (j : Journal) : List Event :=
  j.filterMap fun | .event e => some e | _ => none

/-- The lines of a journal as a log that leaves the events out. -/
def lines (j : Journal) : List LogLine :=
  j.filterMap fun | .line l => some l | _ => none

/-- The lines of a journal as a log that has a line for every event. -/
def fullLines (j : Journal) : List LogLine :=
  j.filterMap fun | .line l => some l | .event e => some e.logLine | _ => none

/-- The instants that the sampler slept until. -/
def sleeps (j : Journal) : List Instant :=
  j.filterMap fun | .slept deadline => some deadline | _ => none

/-- All commands given to the output. -/
def commands (j : Journal) : List Duty :=
  j.filterMap fun | .commanded d _ => some d | _ => none

/-- The commands that the output accepted. -/
def accepted (j : Journal) : List Duty :=
  j.filterMap fun | .commanded d (.ok _) => some d | _ => none

/-- The events of two journals in a row. -/
@[simp]
theorem events_append (i j : Journal) : events (i ++ j) = events i ++ events j :=
  List.filterMap_append

/-- The sleeps of two journals in a row. -/
@[simp]
theorem sleeps_append (i j : Journal) : sleeps (i ++ j) = sleeps i ++ sleeps j :=
  List.filterMap_append

/-- The commands of two journals in a row. -/
@[simp]
theorem commands_append (i j : Journal) : commands (i ++ j) = commands i ++ commands j :=
  List.filterMap_append

/-- The accepted commands of two journals in a row. -/
@[simp]
theorem accepted_append (i j : Journal) : accepted (i ++ j) = accepted i ++ accepted j :=
  List.filterMap_append

end Journal

end SignalChain
