import SignalChain.Stage.Wiring

/-!
# The actuator

The actuator turns every value it is handed into a command for the output. The override decides
the duty where it is in force, and the value does otherwise.

A refused command leaves the output at the last command it accepted. The actuator counts refusals
in a row and halts when they have used up its budget; an accepted command starts the count again.
-/

namespace SignalChain

/-- What became of a command that did not halt the actuator. -/
inductive Applied where
  | issued (d : Duty)
  /-- The output refused the command, for the given number of times in a row. -/
  | refused (cause : OutputFault) (inARow : UInt8)
  deriving DecidableEq

/-- The actuator's settings and its count of refusals. -/
structure Actuator where
  period : Micros
  fullScale : Reading
  /-- How many refusals in a row halt the actuator. -/
  budget : UInt8
  /-- How many commands have been refused since the last accepted one. -/
  failures : UInt8 := 0
  deriving DecidableEq

namespace Actuator

/-- An actuator that has issued nothing yet. A budget of nothing counts as one. -/
def new (period : Micros) (fullScale : Reading) (budget : UInt8) : Actuator where
  period
  fullScale
  budget := max budget 1

/-- The command for `value`, and whether the override chose it. -/
def commandFor (a : Actuator) (manual : Override) (value : Reading) : Duty × Bool :=
  match manual.level.percent? with
  | some percent => (.ofPercent percent a.period, true)
  | none => (.ofValue value a.fullScale a.period, false)

/-- The count after one more refusal; it stops at the top of its byte. -/
def refusals (a : Actuator) : UInt8 :=
  if a.failures = 255 then 255 else a.failures + 1

variable {σ π : Type} [Output π]

/-- Command the output for `value`. The result is an exit where this used up the budget. -/
def apply (a : Actuator) (w : Wiring σ π) (value : Reading) :
    Turn Actuator σ π (Except Exit Applied) :=
  let (duty, manual) := a.commandFor w.manual value
  let r := Output.command w.output duty
  let wiring := { w with output := r.output }
  let handed : Journal := r.lines.map .line ++ [.commanded duty r.answer]
  match r.answer with
  | .ok _ =>
    { result := .ok (.issued duty)
      stage := { a with failures := 0 }
      wiring
      journal := handed ++
        [.line ⟨.debug, "actuator: value=" ++ toString value.toNat ++ " duty=" ++ duty.fraction ++
            if manual then " (manual)" else ""⟩,
          .event (.issued value duty manual)] }
  | .error cause =>
    let failures := a.refusals
    let stage := { a with failures }
    let refused := handed ++ [.event (.refused cause failures)]
    if a.budget ≤ failures then
      { result := .error (.halted cause)
        stage
        wiring
        journal := refused ++
          [.line ⟨.error, "actuator: " ++ cause.message ++ " (" ++ toString failures.toNat ++
              " consecutive), halting with output at last good command"⟩,
            .event (.halted cause)] }
    else
      { result := .ok (.refused cause failures)
        stage
        wiring
        journal := refused ++
          [.line ⟨.warn, "actuator: " ++ cause.message ++ " (" ++ toString failures.toNat ++ "/" ++
              toString a.budget.toNat ++ " consecutive)"⟩] }

/-- One whole cycle, `none` where the actuator has to wait for its input. -/
def cycle? (a : Actuator) (w : Wiring σ π) : Option (Turn Actuator σ π Cycle) :=
  match w.filtered.receive? with
  | none => none
  | some (.closed, filtered) =>
    some { result := .left .shutdown, stage := a, wiring := { w with filtered } }
  | some (.value value, filtered) =>
    let t := a.apply { w with filtered } value
    some
      { result := match t.result with | .ok _ => .again | .error exit => .left exit
        stage := t.stage
        wiring := t.wiring
        journal := t.journal }

/-- What the actuator logs before its first cycle. -/
def opening (a : Actuator) : Journal :=
  [.line ⟨.info, "actuator: started (period " ++ toString a.period.toNat ++ " us, full scale " ++
    toString a.fullScale.toNat ++ ")"⟩]

/-- What the actuator reports when it has left its loop. A halt has been reported already. -/
def closing : Exit → Journal
  | .shutdown => [.event (.stopped .actuator), .line ⟨.info, "actuator: stopped"⟩]
  | .halted _ => []

/-- Cycle at most `n` times and finish. The result is `none` where the actuator would wait or go
on. -/
def runWithin : Nat → Actuator → Wiring σ π → Turn Actuator σ π (Option Exit)
  | 0, a, w => { result := none, stage := a, wiring := w }
  | n + 1, a, w =>
    match a.cycle? w with
    | none => { result := none, stage := a, wiring := w }
    | some t =>
      match t.result with
      | .left exit =>
        { t with result := some exit, journal := t.journal ++ closing exit }
      | .again =>
        let rest := runWithin n t.stage t.wiring
        { rest with journal := t.journal ++ rest.journal }

end Actuator

end SignalChain
