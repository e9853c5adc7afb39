import SignalChain.Proofs.Mailbox.Serving
import SignalChain.Stage.Actuator
import SignalChain.Stage.Filter
import SignalChain.Stage.Sampler

/-!
# What one cycle of a stage does

Every stage has few things to do in a cycle, and which of them it does is plain from the wiring.
For each stage there is one equation for each of them; what a chain does is derived from these and
from the views on journals, and not from the text of the cycles.

## Main definitions

* `Event.sample?`, `Event.report?`: the views on events that concern values on their way.
* `Sampler.work`: the part of a cycle of the sampler that comes between its two instants.
* `Actuator.serve`: the part of a cycle of the actuator that comes after it has found a value.
-/

namespace SignalChain

/-! ### Values on their way, as journals tell them -/

/-- The sample that an event says was published. -/
def Event.sample? : Event → Option Reading
  | .published raw => some raw
  | _ => none

/-- The sample, the coarse mean and the fine mean that an event says the filter worked out. -/
def Event.report? : Event → Option (Reading × Reading × Reading)
  | .filtered sample coarse fine => some (sample, coarse, fine)
  | _ => none

namespace Journal

/-- The samples that went to the filter. -/
def samples (j : Journal) : List Reading :=
  j.events.filterMap Event.sample?

/-- What the filter worked out. -/
def reports (j : Journal) : List (Reading × Reading × Reading) :=
  j.events.filterMap Event.report?

/-- The fine means that the filter published. -/
def fines (j : Journal) : List Reading :=
  j.reports.map fun report => report.2.2

@[simp]
theorem samples_append (i j : Journal) : samples (i ++ j) = samples i ++ samples j := by
  simp [samples]

@[simp]
theorem reports_append (i j : Journal) : reports (i ++ j) = reports i ++ reports j := by
  simp [reports]

/-- Lines of the log are not in a view of anything else. -/
theorem filterMap_map_line {β : Type} {view : Entry → Option β} (h : ∀ l, view (.line l) = none)
    (ls : List LogLine) : (ls.map Entry.line).filterMap view = [] := by
  rw [List.filterMap_map]
  exact List.filterMap_eq_nil_iff.mpr fun l _ => h l

end Journal

/-! ### The sampler -/

namespace Sampler

variable {σ π : Type} [Sensor σ] (s : Sampler) (w : Wiring σ π)

/-- What the sampler does for a release: convert, deliver, and sleep or report an overrun. -/
def work (release : Instant) : Wiring σ π × Journal :=
  let (outcome, w) := s.acquire w
  let (samples, delivery) := s.deliver w.samples outcome
  let (now, settlement) := settle release w.now
  ({ w with samples, now }, delivery ++ settlement)

variable {s w}

/-- A sampler that has been asked to stop leaves and does nothing else. -/
theorem cycle_of_stop (h : w.stopRequested = true) :
    s.cycle w = { result := .ok (.left .shutdown), stage := s, wiring := w } := by
  simp [cycle, h]

/-- A sampler without an instant for its first release breaks off and does nothing else. -/
theorem cycle_of_no_release (hstop : w.stopRequested = false) (h : s.release? w.now = none) :
    s.cycle w = { result := .error {}, stage := s, wiring := w } := by
  simp [cycle, hstop, h]

/-- A sampler with an instant for its release does its work, and then goes on or breaks off
according to the instant for the release after it. -/
theorem cycle_of_release {release : Instant} (hstop : w.stopRequested = false)
    (h : s.release? w.now = some release) :
    s.cycle w =
      { result := if (laterBy? release s.period).isSome then .ok .again else .error {}
        stage := { s with nextRelease := some ((laterBy? release s.period).getD release) }
        wiring := (s.work w release).1
        journal := (s.work w release).2 } := by
  simp only [cycle, hstop, h, Bool.false_eq_true, if_false]
  cases laterBy? release s.period <;> rfl

/-- A reading that was acquired is within the scale. -/
theorem le_fullScale_of_acquire {raw : Reading} (h : (s.acquire w).1 = .ok raw) :
    raw ≤ s.fullScale := by
  simp only [acquire] at h
  split at h
  next => cases h
  next raw' _ =>
    split at h
    next => cases h
    next hle =>
      obtain rfl := Except.ok.inj h
      exact UInt16.not_lt.mp hle

variable (release : Instant)

/-- The work of the sampler publishes a reading within the scale, and says so, or it publishes
nothing. -/
theorem work_samples :
    (∃ raw, raw ≤ s.fullScale ∧ (s.work w release).1.samples = w.samples.publish raw ∧
        (s.work w release).2.samples = [raw]) ∨
      ((s.work w release).1.samples = w.samples ∧ (s.work w release).2.samples = []) := by
  have hsettled : (settle release (s.acquire w).2.now).2.samples = [] := by
    unfold settle
    split <;> rfl
  cases h : (s.acquire w).1 with
  | ok raw =>
    refine Or.inl ⟨raw, le_fullScale_of_acquire h, ?_⟩
    simp only [work, h, deliver, Journal.samples_append, hsettled]
    exact ⟨rfl, rfl⟩
  | error reason =>
    refine Or.inr ?_
    simp only [work, h, deliver, Journal.samples_append, hsettled]
    exact ⟨rfl, rfl⟩

/-- The work of the sampler tells of no estimate and no command. -/
theorem work_journal : (s.work w release).2.reports = [] ∧ (s.work w release).2.commands = [] := by
  have hsettled : (settle release (s.acquire w).2.now).2.reports = [] ∧
      (settle release (s.acquire w).2.now).2.commands = [] := by
    unfold settle
    split <;> exact ⟨rfl, rfl⟩
  cases h : (s.acquire w).1 <;>
    simp only [work, h, deliver, Journal.reports_append, Journal.commands_append, hsettled] <;>
    exact ⟨rfl, rfl⟩

end Sampler

/-! ### The filter -/

namespace Filter

variable {σ π : Type} {f : Filter} {w : Wiring σ π}

/-- A filter waits exactly for a mailbox that has nothing for it. -/
theorem cycle?_eq_none_iff : f.cycle? w = none ↔ w.samples.isReady = false := by
  rw [← Mailbox.receive?_eq_none_iff]
  unfold cycle?
  split <;> simp_all

/-- A filter with a sample to take observes it and publishes the fine mean. -/
theorem cycle?_of_pending (h : w.samples.pending = true) :
    f.cycle? w = some
      { result := .again
        stage := f.observe w.samples.value
        wiring := { w with
          samples := { w.samples with pending := false }
          filtered := w.filtered.publish (f.observe w.samples.value).last.fine }
        journal := report w.samples.value (f.observe w.samples.value).last } := by
  rw [cycle?, Mailbox.receive?_of_pending h]
  rfl

/-- A filter whose input is closed and drained leaves and changes nothing. -/
theorem cycle?_of_drained (hp : w.samples.pending = false) (hc : w.samples.closed = true) :
    f.cycle? w = some { result := .left .shutdown, stage := f, wiring := w } := by
  rw [cycle?, Mailbox.receive?_of_closed hp hc]

/-- What a cycle of the filter can be, if it need not wait: it observes the sample that is there, or
it leaves a closed and drained input and changes nothing. -/
theorem cycle?_cases {t : Turn Filter σ π Cycle} (h : f.cycle? w = some t) :
    (w.samples.pending = true ∧ t =
      { result := .again
        stage := f.observe w.samples.value
        wiring := { w with
          samples := { w.samples with pending := false }
          filtered := w.filtered.publish (f.observe w.samples.value).last.fine }
        journal := report w.samples.value (f.observe w.samples.value).last }) ∨
      (w.samples.pending = false ∧ w.samples.closed = true ∧
        t = { result := .left .shutdown, stage := f, wiring := w }) := by
  cases hp : w.samples.pending with
  | true =>
    rw [cycle?_of_pending hp] at h
    exact Or.inl ⟨rfl, (Option.some.inj h).symm⟩
  | false =>
    cases hc : w.samples.closed with
    | true =>
      rw [cycle?_of_drained hp hc] at h
      exact Or.inr ⟨rfl, rfl, (Option.some.inj h).symm⟩
    | false =>
      have hwait : f.cycle? w = none := cycle?_eq_none_iff.mpr (by simp [Mailbox.isReady, hp, hc])
      rw [hwait] at h
      cases h

end Filter

/-! ### The actuator -/

namespace Actuator

variable {σ π : Type} [Output π] {a : Actuator} {w : Wiring σ π}

/-- Take the value that is there and command the output for it. -/
def serve (a : Actuator) (w : Wiring σ π) : Turn Actuator σ π (Except Exit Applied) :=
  a.apply { w with filtered := { w.filtered with pending := false } } w.filtered.value

/-- An actuator waits exactly for a mailbox that has nothing for it. -/
theorem cycle?_eq_none_iff : a.cycle? w = none ↔ w.filtered.isReady = false := by
  rw [← Mailbox.receive?_eq_none_iff]
  unfold cycle?
  split <;> simp_all

/-- The cycle that the result of a command makes. -/
def cycleOf : Except Exit Applied → Cycle
  | .ok _ => .again
  | .error exit => .left exit

/-- An actuator with a value to take serves it. -/
theorem cycle?_of_pending (h : w.filtered.pending = true) :
    a.cycle? w = some
      { result := cycleOf (a.serve w).result
        stage := (a.serve w).stage
        wiring := (a.serve w).wiring
        journal := (a.serve w).journal } := by
  rw [cycle?, Mailbox.receive?_of_pending h]
  cases hresult : (a.serve w).result <;> simp only [serve] at hresult <;>
    simp only [hresult, serve, cycleOf]

/-- An actuator whose input is closed and drained leaves and changes nothing. -/
theorem cycle?_of_drained (hp : w.filtered.pending = false) (hc : w.filtered.closed = true) :
    a.cycle? w = some { result := .left .shutdown, stage := a, wiring := w } := by
  rw [cycle?, Mailbox.receive?_of_closed hp hc]

/-- What a cycle of the actuator can be, if it need not wait: it commands the output for the value
that is there, or it leaves a closed and drained input and changes nothing. -/
theorem cycle?_cases {t : Turn Actuator σ π Cycle} (h : a.cycle? w = some t) :
    (w.filtered.pending = true ∧ t =
      { result := cycleOf (a.serve w).result
        stage := (a.serve w).stage
        wiring := (a.serve w).wiring
        journal := (a.serve w).journal }) ∨
      (w.filtered.pending = false ∧ w.filtered.closed = true ∧
        t = { result := .left .shutdown, stage := a, wiring := w }) := by
  cases hp : w.filtered.pending with
  | true =>
    rw [cycle?_of_pending hp] at h
    exact Or.inl ⟨rfl, (Option.some.inj h).symm⟩
  | false =>
    cases hc : w.filtered.closed with
    | true =>
      rw [cycle?_of_drained hp hc] at h
      exact Or.inr ⟨rfl, rfl, (Option.some.inj h).symm⟩
    | false =>
      have hwait : a.cycle? w = none := cycle?_eq_none_iff.mpr (by simp [Mailbox.isReady, hp, hc])
      rw [hwait] at h
      cases h

variable (a w) (value : Reading)

/-- A command changes the output and the count of refusals, and nothing else. -/
theorem apply_frame :
    (a.apply w value).wiring = { w with output := (a.apply w value).wiring.output } ∧
      (a.apply w value).stage = { a with failures := (a.apply w value).stage.failures } := by
  unfold apply
  simp only
  split
  · exact ⟨rfl, rfl⟩
  · split <;> exact ⟨rfl, rfl⟩

/-- The output is given exactly the command for the value, and no sample and no estimate is told
of. -/
theorem apply_journal :
    (a.apply w value).journal.commands = [(a.commandFor w.manual value).1] ∧
      (a.apply w value).journal.samples = [] ∧ (a.apply w value).journal.reports = [] := by
  -- what the output writes to the log tells of nothing
  have hlines (ls : List LogLine) : Journal.commands (ls.map .line) = [] ∧
      Journal.samples (ls.map .line) = [] ∧ Journal.reports (ls.map .line) = [] := by
    have hevents : Journal.events (ls.map .line) = [] :=
      Journal.filterMap_map_line (fun _ => rfl) ls
    refine ⟨Journal.filterMap_map_line (fun _ => rfl) ls, ?_, ?_⟩
    · rw [Journal.samples, hevents, List.filterMap_nil]
    · rw [Journal.reports, hevents, List.filterMap_nil]
  unfold apply
  simp only
  split
  · simp only [Journal.commands_append, Journal.samples_append, Journal.reports_append, hlines]
    exact ⟨rfl, rfl, rfl⟩
  · split
    all_goals
      simp only [Journal.commands_append, Journal.samples_append, Journal.reports_append, hlines]
      exact ⟨rfl, rfl, rfl⟩

/-- A value taken is off the permit, and else a command leaves the wiring up to the output. -/
theorem serve_wiring :
    (a.serve w).wiring = { w with
      filtered := { w.filtered with pending := false }
      output := (a.serve w).wiring.output } :=
  (apply_frame a _ _).1

@[simp]
theorem serve_samples : (a.serve w).wiring.samples = w.samples :=
  congrArg (·.samples) (serve_wiring a w)

@[simp]
theorem serve_filtered : (a.serve w).wiring.filtered = { w.filtered with pending := false } :=
  congrArg (·.filtered) (serve_wiring a w)

@[simp]
theorem serve_stopRequested : (a.serve w).wiring.stopRequested = w.stopRequested :=
  congrArg (·.stopRequested) (serve_wiring a w)

@[simp]
theorem serve_sensor : (a.serve w).wiring.sensor = w.sensor :=
  congrArg (·.sensor) (serve_wiring a w)

/-- Serving a value changes nothing of the actuator but its count of refusals. -/
theorem serve_stage :
    (a.serve w).stage = { a with failures := (a.serve w).stage.failures } :=
  (apply_frame a _ _).2

/-- The output is given exactly the command for the value that was taken. -/
@[simp]
theorem serve_commands :
    (a.serve w).journal.commands = [(a.commandFor w.manual w.filtered.value).1] :=
  (apply_journal a _ _).1

@[simp]
theorem serve_journal_samples : (a.serve w).journal.samples = [] :=
  (apply_journal a _ _).2.1

@[simp]
theorem serve_reports : (a.serve w).journal.reports = [] :=
  (apply_journal a _ _).2.2

/-- An actuator that leaves its loop over a command halts. -/
theorem halted_of_apply {exit : Exit} (h : (a.apply w value).result = .error exit) :
    ∃ cause, exit = .halted cause := by
  unfold apply at h
  simp only at h
  split at h
  · cases h
  · next cause _ =>
    split at h
    · exact ⟨cause, (Except.error.inj h).symm⟩
    · cases h

end Actuator

end SignalChain
