import SignalChain.Chain
import SignalChain.Device.Load
import SignalChain.Device.Script
import SignalChain.Task

/-!
# Runs in lock step

A run of all three stages as tasks of their own, in the one order in which nothing is left to
chance: before every conversion the filter and the actuator have taken in all that was published
before. A plan says what happens at each conversion: presses of the override, a change in how the
load treats commands, and the conversion itself. The last conversion asks the chain to stop.

A task can break off in the middle of a cycle. The chain goes on as far as it can without that
task, and the run reports which task broke.
-/

namespace SignalChain

namespace Lockstep

/-- How the load treats commands. -/
inductive Mode where
  /-- Leave them to the PWM. -/
  | working
  /-- Refuse them. -/
  | refusing (cause : OutputFault)
  /-- Break off the task that gives one. -/
  | breaking
  deriving DecidableEq

/-- What happens at one conversion, in this order. -/
structure Beat where
  /-- How often the override is pressed. -/
  presses : Nat := 0
  /-- How the load treats commands from now on, if that changes. -/
  mode : Option Mode := none
  /-- Whether the sampler breaks off instead of converting. -/
  breaks : Bool := false
  conversion : Conversion

/-- A run under way. -/
structure State where
  chain : Chain Script Load
  /-- Whether the load breaks off the task that gives it a command. -/
  breaking : Bool := false
  journal : Journal := []

namespace State

/-- Make a move if it can be made. -/
def attempt (s : State) (m : Chain.Move) : State :=
  match s.chain.step m with
  | none => s
  | some (chain, journal) => { s with chain, journal := s.journal ++ journal }

/-- A cycle of the actuator. On a load that breaks tasks, the value is taken and nothing else
happens. -/
def actuate (s : State) : State :=
  match s.breaking, s.chain.actuatorStanding, s.chain.wiring.filtered.receive? with
  | true, .running, some (.value _, filtered) =>
    { s with chain := { s.chain with wiring.filtered := filtered, actuatorStanding := .broken } }
  | _, _, _ => s.attempt .actuate

/-- Let the filter and the actuator take in what there is, and come to their end if they can. -/
def settle (s : State) : State :=
  (((s.attempt .filter).actuate.attempt .filter).actuate)

/-- Change how the load treats commands. -/
def setMode (s : State) : Option Mode → State
  | none => s
  | some .working =>
    { s with breaking := false, chain := { s.chain with wiring.output.refusing := none } }
  | some (.refusing cause) =>
    { s with breaking := false, chain := { s.chain with wiring.output.refusing := some cause } }
  | some .breaking => { s with breaking := true }

/-- One conversion, with all that goes before and after it. -/
def beat (s : State) (b : Beat) (last : Bool) : State :=
  if s.chain.samplerStanding = .running ∧ s.chain.wiring.stopRequested = false then
    let s := s.settle
    let s := (List.replicate b.presses Chain.Move.press).foldl attempt s
    let s := s.setMode b.mode
    let s :=
      if b.breaks then { s with chain := { s.chain with samplerStanding := .broken } }
      else
        let s := { s with chain := { s.chain with wiring.sensor := { entries := [b.conversion] } } }
        s.attempt .sample
    if last then s.attempt .requestStop else s
  else s

/-- All conversions of a plan, in order. -/
def beats : State → List Beat → State
  | s, [] => s
  | s, [b] => s.beat b true
  | s, b :: rest => (s.beat b false).beats rest

end State

/-- The result of a run: a stage that broke is a fault, and so is one that halted. -/
def result : Except Stage Exits → Except Fault Unit
  | .ok e => e.result
  | .error stage => .error (.broken stage.name)

/-- What a run came to. -/
structure Outcome where
  /-- The exits of the stages, or the first of them that broke. -/
  exits : Except Stage Exits
  /-- Whether the chain had been asked to stop before it was waited for. -/
  requested : Bool
  /-- What the task that started the chain logged. -/
  lines : List LogLine
  final : Chain Script Load
  journal : Journal

/-- The task of a stage. -/
def task (s : Settings) (stage : Stage) : Task :=
  { name := stage.name, stackKb := s.stackKb }

/-- The tasks of a chain, in the order in which they are started: whoever receives comes first. -/
def tasks (s : Settings) : List Task :=
  [Stage.actuator, .filter, .sampler].map (task s)

/-- What is logged when all tasks have been started. -/
def runningLine (s : Settings) : LogLine :=
  ⟨.info, "pipeline: running (sample every " ++ toString s.samplerPeriodMs.toNat ++
    " ms, PWM period " ++ toString s.commandPeriodUs.toNat ++ " us, full scale " ++
    toString s.fullScale.toNat ++ ")"⟩

/-- What is logged when the tasks have been waited for, from the sampler down. The first task that
broke is the last that is waited for. -/
def joinLine : Except Stage Exits → LogLine
  | .ok _ => ⟨.info, "pipeline: stopped"⟩
  | .error stage => ⟨.warn, "pipeline: " ++ stage.name ++ " task panicked"⟩

/-- Run a plan on a chain with the settings `s` and a PWM of the given top. A plan without beats
has one conversion, which fails. The first task that cannot be started is the fault of the run. -/
def run (s : Settings) (top : UInt16) (requestFirst : Bool) (plan : List Beat)
    (threads : Threads := Threads.unlimited) : Except Fault Outcome := do
  let pwm : Pwm := { channel := { top }, period := s.commandPeriod }
  let chain ← Chain.ofSettings s ({ entries := [] } : Script) ({ pwm := some pwm } : Load)
  (tasks s).forM (·.start threads)
  let start : State := { chain, journal := chain.opening }
  let start := if requestFirst then start.attempt .requestStop else start
  let plan := if plan.isEmpty then [{ conversion := { outcome := .error .readFailed } }] else plan
  let played := start.beats plan
  let requested := played.chain.wiring.stopRequested
  let stopping := (played.attempt .requestStop).settle
  let ended := (stopping.attempt .sample).settle
  let exits := ended.chain.exits
  return {
    exits
    requested
    lines := (tasks s).flatMap (·.startLines threads) ++ [runningLine s, joinLine exits]
    final := ended.chain
    journal := ended.journal }

end Lockstep

end SignalChain
