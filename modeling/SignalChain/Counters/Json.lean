import SignalChain.Counters
import SignalChain.Json.Printer

/-!
# Counters as JSON

Counters are a record whose fields all have to be there.
-/

namespace SignalChain.Counters

open SignalChain.Json

/-- The fields of the counters. -/
def schema : Record where
  title := "struct StatsSnapshot"
  required := true
  fields :=
    [⟨"samples_published", .natural 32 "u32"⟩,
      ⟨"read_failures", .natural 32 "u32"⟩,
      ⟨"out_of_range", .natural 32 "u32"⟩,
      ⟨"overruns", .natural 32 "u32"⟩,
      ⟨"worst_lateness_us", .natural 64 "u64"⟩,
      ⟨"filter_runs", .natural 32 "u32"⟩,
      ⟨"commands_issued", .natural 32 "u32"⟩,
      ⟨"overridden_commands", .natural 32 "u32"⟩,
      ⟨"actuation_failures", .natural 32 "u32"⟩,
      ⟨"actuator_halted", .boolean⟩]

/-- The values of the fields. -/
def toData (c : Counters) : List Datum :=
  [.natural c.samplesPublished.toNat, .natural c.readFailures.toNat,
    .natural c.outOfRange.toNat, .natural c.overruns.toNat, .natural c.worstLateness.toNat,
    .natural c.filterRuns.toNat, .natural c.commandsIssued.toNat,
    .natural c.overriddenCommands.toNat, .natural c.actuationFailures.toNat,
    .boolean c.actuatorHalted]

/-- Counters with the values that were read. -/
def ofData (values : List (Option Datum)) : Counters where
  samplesPublished := .ofNat (naturalAt values 0 0)
  readFailures := .ofNat (naturalAt values 1 0)
  outOfRange := .ofNat (naturalAt values 2 0)
  overruns := .ofNat (naturalAt values 3 0)
  worstLateness := .ofNat (naturalAt values 4 0)
  filterRuns := .ofNat (naturalAt values 5 0)
  commandsIssued := .ofNat (naturalAt values 6 0)
  overriddenCommands := .ofNat (naturalAt values 7 0)
  actuationFailures := .ofNat (naturalAt values 8 0)
  actuatorHalted := booleanAt values 9 false

/-- Read counters from a text. -/
def parse (text : String) : Except Json.Fault Counters :=
  ofData <$> schema.read text

/-- The counters as a text in one line. -/
def toCompact (c : Counters) : String :=
  compact (schema.members c.toData)

/-- The counters as a text with one member on each line. -/
def toPretty (c : Counters) : String :=
  pretty (schema.members c.toData)

end SignalChain.Counters
