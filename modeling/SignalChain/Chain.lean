import SignalChain.Counters
import SignalChain.Settings
import SignalChain.Stage.Actuator
import SignalChain.Stage.Filter
import SignalChain.Stage.Sampler

/-!
# Chains

A chain is the three stages with their wiring. It moves by whole cycles of stages, by operations on
the override, and by the request to stop. A move that cannot be made, because the stage waits for
its input or has come to its end, is `none`.

A stage whose cycle says that it is done finishes in the same move: the sampler and the filter
close the mailbox they publish into, so that the next stage can come to its end too.
-/

namespace SignalChain

/-- Where a stage stands. -/
inductive Standing where
  /-- It cycles. -/
  | running
  /-- It has come to its end. -/
  | left (exit : Exit)
  /-- It has broken off in the middle of a cycle. -/
  | broken
  deriving DecidableEq

/-- The three stages, what they share, and what has been counted of their events. -/
structure Chain (σ π : Type) where
  wiring : Wiring σ π
  sampler : Sampler
  filter : Filter := {}
  actuator : Actuator
  samplerStanding : Standing := .running
  filterStanding : Standing := .running
  actuatorStanding : Standing := .running
  counters : Counters := {}

namespace Chain

variable {σ π : Type}

/-- A sampler that keeps to the settings. -/
def samplerOf (s : Settings) : Sampler where
  period := s.samplerPeriod
  fullScale := s.fullScale

/-- An actuator that keeps to the settings. -/
def actuatorOf (s : Settings) : Actuator :=
  .new s.commandPeriod s.fullScale s.failureBudget

/-- A chain that keeps to the settings, before its first move, if the settings are valid. -/
def ofSettings (s : Settings) (sensor : σ) (output : π) (now : Instant := 0) :
    Except Fault (Chain σ π) :=
  match s.validate with
  | .error cause => .error (.settings cause)
  | .ok _ =>
    .ok { wiring := { sensor, output, now }, sampler := samplerOf s, actuator := actuatorOf s }

/-- What the stages log before their first cycles, in the order in which they are started: whoever
receives comes first. -/
def opening (c : Chain σ π) : Journal :=
  c.actuator.opening ++ Filter.opening ++ c.sampler.opening

/-- How the stages came to their ends, or the first stage that has not come to one. -/
def exits (c : Chain σ π) : Except Stage Exits :=
  match c.samplerStanding, c.filterStanding, c.actuatorStanding with
  | .left sampler, .left filter, .left actuator => .ok { sampler, filter, actuator }
  | .left _, .left _, _ => .error .actuator
  | .left _, _, _ => .error .filter
  | _, _, _ => .error .sampler

/-! ## Moves -/

/-- What can happen to a chain. -/
inductive Move where
  /-- A cycle of the sampler. -/
  | sample
  /-- A cycle of the filter. -/
  | filter
  /-- A cycle of the actuator. -/
  | actuate
  /-- The button of the override. -/
  | press
  | setLevel (l : Level)
  /-- The request to stop. -/
  | requestStop
  deriving DecidableEq

variable [Sensor σ] [Output π]

/-- A cycle of the sampler, and its finish where the cycle says that it is done. -/
def sampleTurn (c : Chain σ π) : Chain σ π × Journal :=
  let t := c.sampler.cycle c.wiring
  match t.result with
  | .ok .again => ({ c with sampler := t.stage, wiring := t.wiring }, t.journal)
  | .ok (.left exit) =>
    let (wiring, closing) := Sampler.finish t.wiring
    ({ c with sampler := t.stage, wiring, samplerStanding := .left exit }, t.journal ++ closing)
  | .error _ =>
    ({ c with sampler := t.stage, wiring := t.wiring, samplerStanding := .broken }, t.journal)

/-- A cycle of the filter, and its finish where the cycle says that it is done. -/
def filterTurn? (c : Chain σ π) : Option (Chain σ π × Journal) :=
  (c.filter.cycle? c.wiring).map fun t =>
    match t.result with
    | .again => ({ c with filter := t.stage, wiring := t.wiring }, t.journal)
    | .left exit =>
      let (wiring, closing) := Filter.finish t.wiring
      ({ c with filter := t.stage, wiring, filterStanding := .left exit }, t.journal ++ closing)

/-- A cycle of the actuator, and its report where the cycle says that it is done. -/
def actuateTurn? (c : Chain σ π) : Option (Chain σ π × Journal) :=
  (c.actuator.cycle? c.wiring).map fun t =>
    match t.result with
    | .again => ({ c with actuator := t.stage, wiring := t.wiring }, t.journal)
    | .left exit =>
      ({ c with actuator := t.stage, wiring := t.wiring, actuatorStanding := .left exit },
        t.journal ++ Actuator.closing exit)

/-- A move before its events are counted. -/
def move? (c : Chain σ π) : Move → Option (Chain σ π × Journal)
  | .sample => if c.samplerStanding = .running then some c.sampleTurn else none
  | .filter => if c.filterStanding = .running then c.filterTurn? else none
  | .actuate => if c.actuatorStanding = .running then c.actuateTurn? else none
  | .press => some ({ c with wiring.manual := c.wiring.manual.press.2 }, [])
  | .setLevel l => some ({ c with wiring.manual := c.wiring.manual.set l }, [])
  | .requestStop => some ({ c with wiring.stopRequested := true }, [])

/-- Make a move, if it can be made, and count its events. -/
def step (c : Chain σ π) (m : Move) : Option (Chain σ π × Journal) :=
  (c.move? m).map fun (c, journal) =>
    ({ c with counters := c.counters.recordAll journal.events }, journal)

/-- Make those of the moves that can be made, in order. -/
def run (c : Chain σ π) : List Move → Chain σ π × Journal
  | [] => (c, [])
  | m :: ms =>
    match c.step m with
    | none => c.run ms
    | some (c, journal) =>
      let (c, rest) := c.run ms
      (c, journal ++ rest)

end Chain

end SignalChain
