import SignalChain.Chain
import SignalChain.Device.Adc
import SignalChain.Device.Load
import SignalChain.Device.Script

/-!
# The bench

On a bench the stages of a chain are stepped by hand, in any order, with simulated devices and a
clock that moves only when told to. Between the steps every shared part can be worked directly:
values put into the mailboxes and taken out, mailboxes closed, the override set, the devices made
to fail. A stage that was run to its end is used up, and a fresh one can take its place on the same
wiring.

A step answers, and the journal says what happened during it.
-/

namespace SignalChain

/-- The sensor of a bench: a script, or a simulated converter. -/
inductive Probe where
  | script (s : Script)
  /-- A converter, with the reading that it was made with. -/
  | adc (initial : Reading) (a : Adc)

namespace Probe

/-- Convert on whichever sensor it is. -/
def convert : Probe → Conversion × Probe
  | script s => (s.convert.1, script s.convert.2)
  | adc initial a => ((Sensor.convert a).1, adc initial (Sensor.convert a).2)

/-- The sensor of a fresh sampler: the same script, but a converter of its own. -/
def renew : Probe → Probe
  | script s => script s
  | adc initial _ => adc initial { raw := initial }

instance : Sensor Probe where
  convert := convert

/-- Whether the sensor has no conversions left to play back and has been asked for one. -/
def ranOut : Probe → Bool
  | script s => s.ranOut
  | adc .. => false

/-- How many conversions are left to play back. -/
def remaining : Probe → Nat
  | script s => s.entries.length
  | adc .. => 0

end Probe

/-- Stages on a bench, with their wiring. A stage that has been used up is `none`. -/
structure Bench where
  wiring : Wiring Probe Load
  sampler : Option Sampler
  filter : Option Filter := some {}
  actuator : Option Actuator
  counters : Counters := {}
  /-- A sampler before its first cycle. -/
  freshSampler : Sampler
  /-- An actuator before its first command. -/
  freshActuator : Actuator
  /-- The settings the stages were made from, if they were. -/
  settings : Option Settings := none
  /-- Whether a conversion that leaves the script empty asks the chain to stop. -/
  stopWhenEmpty : Bool := false

namespace Bench

/-- A bench with the stages of a chain that keeps to the settings. -/
def ofSettings (s : Settings) (sensor : Probe) (output : Load) (now : Instant) :
    Except Fault Bench := do
  let c ← Chain.ofSettings s sensor output now
  return {
    wiring := c.wiring
    sampler := some c.sampler
    actuator := some c.actuator
    freshSampler := c.sampler
    freshActuator := c.actuator
    settings := some s }

/-- A bench with stages that were made by hand. -/
def ofStages (s : Sampler) (a : Actuator) (wiring : Wiring Probe Load) : Bench where
  wiring
  sampler := some s
  actuator := some a
  freshSampler := s
  freshActuator := a

/-- What can be done on a bench. -/
inductive Step where
  /-- One cycle of a stage. -/
  | cycle (stage : Stage)
  /-- The whole loop of a stage, which uses the stage up. -/
  | run (stage : Stage)
  /-- Put a fresh stage in the place of the old one. -/
  | renew (stage : Stage)
  /-- Let the sampler convert without a cycle around it. -/
  | acquire
  /-- Let the filter take in a sample that no mailbox held. -/
  | process (sample : Reading)
  /-- Let the actuator command for a value that no mailbox held. -/
  | apply (value : Reading)
  /-- Ask the actuator for the command for a value. -/
  | commandFor (value : Reading)
  | scriptNext (c : Conversion)
  | adcSet (raw : Reading)
  | adcFail (count : UInt32)
  | failing (cause : Option OutputFault)
  | advance (span : Micros)
  | press
  | setLevel (l : Level)
  | publishSample (v : Reading)
  | publishFiltered (v : Reading)
  | closeSamples
  | closeFiltered
  | takeSample
  | takeFiltered
  | requestStop
  | counters
  | settings

/-- What a step is answered with. -/
inductive Answer where
  | done
  /-- The stage has been used up. -/
  | usedUp
  /-- The stage would have to wait. -/
  | wouldWait
  | cycled (c : Cycle)
  | exited (e : Exit)
  | overflowed (o : InstantOverflow)
  | acquired (r : Except Rejection Reading)
  | estimated (e : Estimate)
  | applied (r : Except Exit Applied)
  | command (d : Duty) (manual : Bool)
  | taken (v : Option Reading)
  | level (l : Level)
  | counted (c : Counters)
  | configured (s : Option Settings)

/-- What a step leaves: its answer, the bench, and what happened. -/
structure Outcome where
  answer : Answer
  bench : Bench
  journal : Journal := []

/-- After a conversion: ask the chain to stop if the script has run out and the bench says so. -/
def afterConversion (b : Bench) (w : Wiring Probe Load) : Wiring Probe Load :=
  { w with stopRequested := w.stopRequested || (b.stopWhenEmpty && w.sensor.ranOut) }

/-- Whether the loop of the sampler is sure to end. -/
def samplerEnds (b : Bench) : Bool :=
  b.wiring.stopRequested || (b.stopWhenEmpty && 0 < b.wiring.sensor.remaining)

/-- One cycle of a stage. -/
def cycle (b : Bench) : Stage → Outcome
  | .sampler =>
    match b.sampler with
    | none => { answer := .usedUp, bench := b }
    | some s =>
      let t := s.cycle b.wiring
      { answer := match t.result with | .ok c => .cycled c | .error o => .overflowed o
        bench := { b with sampler := some t.stage, wiring := b.afterConversion t.wiring }
        journal := t.journal }
  | .filter =>
    match b.filter with
    | none => { answer := .usedUp, bench := b }
    | some f =>
      match f.cycle? b.wiring with
      | none => { answer := .wouldWait, bench := b }
      | some t =>
        { answer := .cycled t.result
          bench := { b with filter := some t.stage, wiring := t.wiring }
          journal := t.journal }
  | .actuator =>
    match b.actuator with
    | none => { answer := .usedUp, bench := b }
    | some a =>
      match a.cycle? b.wiring with
      | none => { answer := .wouldWait, bench := b }
      | some t =>
        { answer := .cycled t.result
          bench := { b with actuator := some t.stage, wiring := t.wiring }
          journal := t.journal }

/-- The answer to a loop that may not have come to its end. -/
def Answer.ofExit : Option Exit → Answer
  | some e => .exited e
  | none => .wouldWait

/-- The whole loop of a stage, if it is sure to end. That is looked at before whether there is a
stage at all. Two cycles take a closed mailbox from its last value to its end. -/
def run (b : Bench) : Stage → Outcome
  | .sampler =>
    if b.samplerEnds then
      match b.sampler with
      | none => { answer := .usedUp, bench := b }
      | some s =>
        let t := s.runWithin b.afterConversion (b.wiring.sensor.remaining + 1) b.wiring
        { answer := match t.result with | .ok e => .ofExit e | .error o => .overflowed o
          bench := { b with sampler := none, wiring := t.wiring }
          journal := s.opening ++ t.journal }
    else { answer := .wouldWait, bench := b }
  | .filter =>
    if b.wiring.samples.closed then
      match b.filter with
      | none => { answer := .usedUp, bench := b }
      | some f =>
        let t := f.runWithin 2 b.wiring
        { answer := .ofExit t.result
          bench := { b with filter := none, wiring := t.wiring }
          journal := Filter.opening ++ t.journal }
    else { answer := .wouldWait, bench := b }
  | .actuator =>
    if b.wiring.filtered.closed then
      match b.actuator with
      | none => { answer := .usedUp, bench := b }
      | some a =>
        let t := a.runWithin 2 b.wiring
        { answer := .ofExit t.result
          bench := { b with actuator := none, wiring := t.wiring }
          journal := a.opening ++ t.journal }
    else { answer := .wouldWait, bench := b }

/-- A fresh stage on the same wiring. -/
def renew (b : Bench) : Stage → Bench
  | .sampler =>
    { b with sampler := some b.freshSampler, wiring.sensor := b.wiring.sensor.renew }
  | .filter => { b with filter := some {} }
  | .actuator => { b with actuator := some b.freshActuator }

/-- Work the simulated converter, where there is one. -/
def onAdc (b : Bench) (f : Adc → Adc) : Bench :=
  match b.wiring.sensor with
  | .adc initial a => { b with wiring.sensor := .adc initial (f a) }
  | .script _ => b

/-- Add a conversion to the script, where there is one. -/
def onScript (b : Bench) (c : Conversion) : Bench :=
  match b.wiring.sensor with
  | .script s => { b with wiring.sensor := .script (s.append c) }
  | .adc .. => b

/-- Make the output fail or work. A channel behind the load fails its writes, whatever the fault;
a load without one refuses with the fault itself. -/
def setFailing (b : Bench) (cause : Option OutputFault) : Bench :=
  match b.wiring.output.pwm with
  | some pwm =>
    { b with wiring.output.pwm := some { pwm with failing := cause.isSome } }
  | none => { b with wiring.output.refusing := cause }

/-- One step, before its events are counted. -/
def perform (b : Bench) : Step → Outcome
  | .cycle stage => b.cycle stage
  | .run stage => b.run stage
  | .renew stage => { answer := .done, bench := b.renew stage }
  | .acquire =>
    match b.sampler with
    | none => { answer := .usedUp, bench := b }
    | some s =>
      let (r, w) := s.acquire b.wiring
      { answer := .acquired r, bench := { b with wiring := b.afterConversion w } }
  | .process sample =>
    match b.filter with
    | none => { answer := .usedUp, bench := b }
    | some f =>
      let t := f.process b.wiring sample
      { answer := .estimated t.result
        bench := { b with filter := some t.stage, wiring := t.wiring }
        journal := t.journal }
  | .apply value =>
    match b.actuator with
    | none => { answer := .usedUp, bench := b }
    | some a =>
      let t := a.apply b.wiring value
      { answer := .applied t.result
        bench := { b with actuator := some t.stage, wiring := t.wiring }
        journal := t.journal }
  | .commandFor value =>
    match b.actuator with
    | none => { answer := .usedUp, bench := b }
    | some a =>
      let (d, manual) := a.commandFor b.wiring.manual value
      { answer := .command d manual, bench := b }
  | .scriptNext c => { answer := .done, bench := b.onScript c }
  | .adcSet raw => { answer := .done, bench := b.onAdc (·.set raw) }
  | .adcFail count => { answer := .done, bench := b.onAdc (·.failNext count) }
  | .failing cause => { answer := .done, bench := b.setFailing cause }
  | .advance span => { answer := .done, bench := { b with wiring.now := b.wiring.now + span } }
  | .press =>
    let (l, manual) := b.wiring.manual.press
    { answer := .level l, bench := { b with wiring.manual := manual } }
  | .setLevel l =>
    { answer := .done, bench := { b with wiring.manual := b.wiring.manual.set l } }
  | .publishSample v =>
    { answer := .done, bench := { b with wiring.samples := b.wiring.samples.publish v } }
  | .publishFiltered v =>
    { answer := .done, bench := { b with wiring.filtered := b.wiring.filtered.publish v } }
  | .closeSamples =>
    { answer := .done, bench := { b with wiring.samples := b.wiring.samples.close } }
  | .closeFiltered =>
    { answer := .done, bench := { b with wiring.filtered := b.wiring.filtered.close } }
  | .takeSample =>
    let (v, samples) := b.wiring.samples.tryTake
    { answer := .taken v, bench := { b with wiring.samples := samples } }
  | .takeFiltered =>
    let (v, filtered) := b.wiring.filtered.tryTake
    { answer := .taken v, bench := { b with wiring.filtered := filtered } }
  | .requestStop => { answer := .done, bench := { b with wiring.stopRequested := true } }
  | .counters => { answer := .counted b.counters, bench := b }
  | .settings => { answer := .configured b.settings, bench := b }

/-- One step. Its events are counted. -/
def step (b : Bench) (s : Step) : Outcome :=
  let o := b.perform s
  { o with bench := { o.bench with counters := o.bench.counters.recordAll o.journal.events } }

/-- The steps in order, with what each of them left. An overflow of the clock ends the list. -/
def steps (b : Bench) : List Step → List Outcome
  | [] => []
  | s :: rest =>
    let o := b.step s
    match o.answer with
    | .overflowed _ => [o]
    | _ => o :: o.bench.steps rest

end Bench

end SignalChain
