import SignalChain.Estimate
import SignalChain.Stage.Wiring
import SignalChain.Window

/-!
# The filter

The filter takes every sample it is handed into its window, estimates the window and publishes the
fine mean. It leaves when its input is closed and drained, and then closes its output.
-/

namespace SignalChain

/-- The number of readings that the filter averages over. -/
def windowLength : Nat := 10

/-- The filter averages over something. -/
theorem windowLength_pos : 0 < windowLength := by decide

/-- The filter's memory. -/
structure Filter where
  window : Window windowLength := .empty windowLength windowLength_pos
  /-- The estimate of the latest sample, all zero before the first. -/
  last : Estimate := {}

namespace Filter

variable {σ π : Type}

/-- Take in a sample and estimate the window. -/
def observe (f : Filter) (sample : Reading) : Filter :=
  let window := f.window.push sample
  { window, last := .ofReadings window.stored }

/-- Take in a sample and publish the fine mean. -/
def process (f : Filter) (w : Wiring σ π) (sample : Reading) : Turn Filter σ π Estimate :=
  let f := f.observe sample
  { result := f.last
    stage := f
    wiring := { w with filtered := w.filtered.publish f.last.fine } }

/-- What the filter reports of a sample. -/
def report (sample : Reading) (e : Estimate) : Journal :=
  [.line ⟨.debug, "filter: sample=" ++ toString sample.toNat ++ " avg1=" ++
      toString e.coarse.toNat ++ " (" ++ toString e.nonzero ++ " nonzero) avg2=" ++
      toString e.fine.toNat ++ " (" ++ toString e.kept ++ " kept)"⟩,
    .event (.filtered sample e.coarse e.fine)]

/-- One whole cycle, `none` where the filter has to wait for its input. -/
def cycle? (f : Filter) (w : Wiring σ π) : Option (Turn Filter σ π Cycle) :=
  match w.samples.receive? with
  | none => none
  | some (.closed, samples) =>
    some { result := .left .shutdown, stage := f, wiring := { w with samples } }
  | some (.value sample, samples) =>
    let t := f.process { w with samples } sample
    some
      { result := .again
        stage := t.stage
        wiring := t.wiring
        journal := report sample t.result }

/-- What the filter logs before its first cycle. -/
def opening : Journal :=
  [.line ⟨.info, "filter: started"⟩]

/-- What the filter does when it has left its loop: it closes its output. -/
def finish (w : Wiring σ π) : Wiring σ π × Journal :=
  ({ w with filtered := w.filtered.close },
    [.event (.stopped .filter), .line ⟨.info, "filter: stopped"⟩])

/-- Cycle at most `n` times and finish. The result is `none` where the filter would wait or go
on. -/
def runWithin : Nat → Filter → Wiring σ π → Turn Filter σ π (Option Exit)
  | 0, f, w => { result := none, stage := f, wiring := w }
  | n + 1, f, w =>
    match f.cycle? w with
    | none => { result := none, stage := f, wiring := w }
    | some t =>
      match t.result with
      | .left exit =>
        let (w, closing) := finish t.wiring
        { result := some exit, stage := t.stage, wiring := w, journal := t.journal ++ closing }
      | .again =>
        let rest := runWithin n t.stage t.wiring
        { rest with journal := t.journal ++ rest.journal }

end Filter

end SignalChain
