import SignalChain.Json.Printer
import SignalChain.Settings

/-!
# Settings as JSON

Settings are a record whose fields all have defaults. A field that the text does not have keeps its
default, and no value is ever clamped or cut off to fit.
-/

namespace SignalChain.Settings

open SignalChain.Json

/-- The fields of the settings. -/
def schema : Record where
  title := "struct PipelineConfig"
  required := false
  fields :=
    [⟨"sampler_period_ms", .natural 32 "u32"⟩,
      ⟨"adc_resolution_bits", .natural 8 "u8"⟩,
      ⟨"command_period_us", .natural 32 "u32"⟩,
      ⟨"max_consecutive_actuation_failures", .natural 8 "u8"⟩,
      ⟨"task_stack_kb", .natural 64 "usize"⟩]

/-- The values of the fields. -/
def toData (s : Settings) : List Datum :=
  [.natural s.samplerPeriodMs.toNat, .natural s.resolutionBits.toNat,
    .natural s.commandPeriodUs.toNat, .natural s.failureBudget.toNat, .natural s.stackKb.toNat]

/-- Settings with the values that were read, and defaults for the others. -/
def ofData (values : List (Option Datum)) : Settings :=
  let defaults : Settings := {}
  { samplerPeriodMs := .ofNat (naturalAt values 0 defaults.samplerPeriodMs.toNat)
    resolutionBits := .ofNat (naturalAt values 1 defaults.resolutionBits.toNat)
    commandPeriodUs := .ofNat (naturalAt values 2 defaults.commandPeriodUs.toNat)
    failureBudget := .ofNat (naturalAt values 3 defaults.failureBudget.toNat)
    stackKb := .ofNat (naturalAt values 4 defaults.stackKb.toNat) }

/-- Read settings from a text. -/
def parse (text : String) : Except Json.Fault Settings :=
  ofData <$> schema.read text

/-- The settings as a text in one line. -/
def toCompact (s : Settings) : String :=
  compact (schema.members s.toData)

end SignalChain.Settings
